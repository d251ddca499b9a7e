import FrontEnd.CommandLine.Arguments

/-!
# FrontEnd.CommandLine.Parse

From a list of arguments to what they ask for. Arguments are read from left to right, and the
first that cannot be read is the error; what is missing or in conflict shows at the end, for the
command first and then for the program.

* `Shape` — how an argument looks: long option, cluster of short ones, or word.
* `count` — the short options for more and for less log, each up to twice.
* `Source.read` — the arguments of a command on a file: options and one word in any order; after
  `--` every argument is a word.
* `operands` — the arguments of an expression: from the first that is no option on, all of
  them, whatever they look like.
* `parse` — the whole command line.
-/

namespace FrontEnd.CommandLine

inductive Shape where
  | long (name : String) (value? : Option String)
  | short (flags : List Char)
  | word
  deriving DecidableEq, Repr

/-- A lone hyphen is a word. -/
def Shape.of (argument : String) : Shape :=
  match argument.toList with
  | '-' :: '-' :: text =>
    let name := String.ofList (text.takeWhile (· != '='))
    match text.dropWhile (· != '=') with
    | [] => long name none
    | _ :: value => long name (some (String.ofList value))
  | '-' :: c :: flags => short (c :: flags)
  | _ => word

def countLimit : Nat := 2

def Verbosity.more (v : Verbosity) : Except UsageError Verbosity :=
  if v.verbose < countLimit then .ok { v with verbose := v.verbose + 1 } else .error .tooOften

def Verbosity.less (v : Verbosity) : Except UsageError Verbosity :=
  if v.quiet < countLimit then .ok { v with quiet := v.quiet + 1 } else .error .tooOften

/-- The short options in front of a command and, `-V` apart, behind it. -/
def count (hasVersion : Bool) (v : Verbosity) : List Char → Except UsageError Verbosity
  | [] => .ok v
  | c :: rest =>
    if c = 'v' then
      match v.more with
      | .ok v => count hasVersion v rest
      | .error e => .error e
    else if c = 'q' then
      match v.less with
      | .ok v => count hasVersion v rest
      | .error e => .error e
    else if c = 'h' then .error .help
    else if c = 'V' ∧ hasVersion then .error .version
    else .error .unknownArgument

/-- What a long option without use of its own comes to: help, or the version where there is one,
neither of them with a value. -/
def longOption (hasVersion : Bool) (name : String) (value? : Option String) : UsageError :=
  if name = "help" then if value?.isSome then .unwantedValue else .help
  else if name = "version" ∧ hasVersion then
    if value?.isSome then .unwantedValue else .version
  else .unknownArgument

/-- The arguments of a command on a file, as far as they are read. -/
structure Source where
  verbosity : Verbosity
  file? : Option String
  trace : Bool
  deriving DecidableEq, Repr

namespace Source

def start : Source := ⟨.neutral, none, false⟩

/-- A file must have a name. It is looked at when the next option is, or at the end. -/
def settle (source : Source) : Except UsageError Unit :=
  if source.file? = some "" then .error .emptyFile else .ok ()

def word (source : Source) (argument : String) : Except UsageError Source :=
  match source.file? with
  | none => .ok { source with file? := some argument }
  | some _ => .error .unknownArgument

def short (source : Source) (flags : List Char) : Except UsageError Source :=
  match flags.head?.filter (['v', 'q', 'h'].contains ·), source.settle with
  | some _, .error e => .error e
  | _, _ =>
    match count false source.verbosity flags with
    | .ok v => .ok { source with verbosity := v }
    | .error e => .error e

def long (source : Source) (name : String) (value? : Option String) :
    Except UsageError Source :=
  match value?, source.settle with
  | some _, _ =>
    .error (if name = "trace" then .unwantedValue else longOption false name value?)
  | none, settled =>
    if name = "trace" then
      match settled with
      | .error e => .error e
      | .ok () => if source.trace then .error .repeatedFlag else .ok { source with trace := true }
    else
      match longOption false name none, settled with
      | .help, .error e => .error e
      | other, _ => .error other

/-- Reads all arguments; `escaped` says that a `--` came before them. -/
def read (source : Source) (escaped : Bool) : List String → Except UsageError Source
  | [] =>
    match source.settle with
    | .error e => .error e
    | .ok () => .ok source
  | argument :: rest =>
    if !escaped && argument = "--" then read source true rest
    else
      let step := match if escaped then Shape.word else Shape.of argument with
        | .word => source.word argument
        | .short flags => source.short flags
        | .long name value? => source.long name value?
      match step with
      | .error e => .error e
      | .ok source => read source escaped rest

/-- The file and the flag of a command whose arguments are complete. -/
def complete (source : Source) : Except UsageError (String × Bool) :=
  if source.verbosity.isConflicting then .error .conflict
  else
    match source.file? with
    | none => .error .missingArgument
    | some file => .ok (file, source.trace)

end Source

/-- Options for the log, then the operands. An argument that looks like an option but is none of
these is an operand; one `--` in front of the operands is dropped. -/
def operands (v : Verbosity) : List String → Except UsageError (Verbosity × List String)
  | [] => .ok (v, [])
  | argument :: rest =>
    if argument = "--" then .ok (v, rest)
    else
      match Shape.of argument with
      | .word => .ok (v, argument :: rest)
      | .short flags =>
        if flags.all (['v', 'q', 'h'].contains ·) then
          match count false v flags with
          | .ok v => operands v rest
          | .error e => .error e
        else .ok (v, argument :: rest)
      | .long name value? =>
        if name = "help" then .error (longOption false name value?)
        else .ok (v, argument :: rest)

/-- The names that stand for a command. -/
inductive CommandName where
  | lex
  | parse
  | resolve
  | help
  deriving DecidableEq, Repr

namespace CommandName

def all : List CommandName := [lex, parse, resolve, help]

def text : CommandName → String
  | lex => "lex"
  | parse => "parse"
  | resolve => "postfix"
  | help => "help"

def of? (argument : String) : Option CommandName := all.find? (·.text == argument)

end CommandName

/-- The arguments behind `help`: at most the name of a command. -/
def helpOn : List String → UsageError
  | [] => .help
  | [name] => if (CommandName.of? name).isSome then .help else .unknownCommand
  | _ => .unknownCommand

/-- Reads the arguments behind a command's name. -/
def parseCommand (name : CommandName) (rest : List String) :
    Except UsageError (Verbosity × Command) :=
  match name with
  | .lex =>
    (Source.start.read false rest).bind fun source =>
      source.complete.map fun (file, trace) => (source.verbosity, .lex file trace)
  | .parse =>
    (Source.start.read false rest).bind fun source =>
      source.complete.map fun (file, trace) => (source.verbosity, .parse file trace)
  | .resolve =>
    (operands .neutral rest).bind fun (v, expression) =>
      if v.isConflicting then .error .conflict
      else if expression = [] then .error .missingArgument
      else .ok (v, .resolve expression)
  | .help => .error (helpOn rest)

/-- A command line that ends without a command. -/
def noCommand (v : Verbosity) : UsageError :=
  if v = .neutral then .nothing else .missingCommand

/-- Reads options up to the command's name, then the command. What the command's own arguments
say about the log counts first. -/
def parseFrom (v : Verbosity) : List String → Except UsageError Arguments
  | [] => .error (noCommand v)
  | argument :: rest =>
    if argument = "--" then
      match rest with
      | [] => .error (noCommand v)
      | next :: _ =>
        .error (if (CommandName.of? next).isSome then .unknownArgument else .unknownCommand)
    else
      match CommandName.of? argument with
      | some name =>
        match parseCommand name rest with
        | .error e => .error e
        | .ok (own, command) =>
          if v.isConflicting then .error .conflict else .ok ⟨v.override own, command⟩
      | none =>
        match Shape.of argument with
        | .word => .error .unknownCommand
        | .long name value? => .error (longOption true name value?)
        | .short flags =>
          match count true v flags with
          | .ok v => parseFrom v rest
          | .error e => .error e

def parse (arguments : List String) : Except UsageError Arguments :=
  parseFrom .neutral arguments

end FrontEnd.CommandLine
