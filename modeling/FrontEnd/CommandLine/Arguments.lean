import FrontEnd.Log
import FrontEnd.Text.Quoted

/-!
# FrontEnd.CommandLine.Arguments

What the command line asks for.

* `Verbosity` — how often the options for more and for less log were given;
  `Verbosity.threshold` is the log they ask for.
* `Command` — the three things the program does.
* `Arguments` — a command line that was understood; `Arguments.debug` is its form in the log.
* `UsageError` — why a command line was not.
-/

namespace FrontEnd.CommandLine

structure Verbosity where
  verbose : Nat
  quiet : Nat
  deriving DecidableEq, Repr

namespace Verbosity

def neutral : Verbosity := ⟨0, 0⟩

/-- Whether both options were given. -/
def isConflicting (v : Verbosity) : Bool := v.verbose > 0 && v.quiet > 0

/-- Options given later take the place of the same options given before. -/
def override (before after : Verbosity) : Verbosity :=
  ⟨if after.verbose > 0 then after.verbose else before.verbose,
    if after.quiet > 0 then after.quiet else before.quiet⟩

/-- More for every `-v`, less for every `-q`, two steps at most either way. -/
def offset (v : Verbosity) : Int := (min v.verbose 2 : Int) - (min v.quiet 2 : Int)

def threshold (v : Verbosity) : Threshold :=
  if v.offset ≤ -2 then none
  else if v.offset = -1 then some .error
  else if v.offset = 0 then some .info
  else if v.offset = 1 then some .debug
  else some .trace

end Verbosity

inductive Command where
  /-- List the tokens of a file. -/
  | lex (file : String) (trace : Bool)
  /-- Check that a file is a program. -/
  | parse (file : String) (trace : Bool)
  /-- Put an infix expression, given in parts, into postfix order. -/
  | resolve (expression : List String)
  deriving DecidableEq, Repr

/-- The file the command works on. -/
def Command.file? : Command → Option String
  | lex file _ => some file
  | parse file _ => some file
  | resolve _ => none

structure Arguments where
  verbosity : Verbosity
  command : Command
  deriving DecidableEq, Repr

/-- A record as the log shows it: a name and fields between braces. -/
def record (name : String) (fields : List (String × String)) : String :=
  name ++ " \x7b "
    ++ ", ".intercalate (fields.map fun (field, value) => field ++ ": " ++ value)
    ++ " \x7d"

def flagText (flag : Bool) : String := if flag then "true" else "false"

def Verbosity.debug (v : Verbosity) : String :=
  record "LoggingArgs" [("verbose", toString v.verbose), ("quiet", toString v.quiet)]

/-- The arguments of a command that works on a file. -/
def sourceDebug (file : String) (trace : Bool) : String :=
  record "SourceArgs" [("file", Text.quote file), ("trace", flagText trace)]

def Command.debug : Command → String
  | lex file trace => "Lex(" ++ sourceDebug file trace ++ ")"
  | parse file trace => "Parse(" ++ sourceDebug file trace ++ ")"
  | resolve expression =>
    record "Postfix"
      [("expression", "[" ++ ", ".intercalate (expression.map Text.quote) ++ "]")]

def Arguments.debug (arguments : Arguments) : String :=
  record "Args"
    [("logging", arguments.verbosity.debug), ("command", arguments.command.debug)]

inductive UsageError where
  /-- No argument at all. -/
  | nothing
  | missingCommand
  | unknownCommand
  | unknownArgument
  | missingArgument
  /-- Asked for more and for less log at once. -/
  | conflict
  | repeatedFlag
  /-- An option counted past its limit. -/
  | tooOften
  /-- A value attached to an option that takes none. -/
  | unwantedValue
  | emptyFile
  /-- Not a mistake: asked for help. -/
  | help
  /-- Not a mistake: asked for the version. -/
  | version
  deriving DecidableEq, Repr

end FrontEnd.CommandLine
