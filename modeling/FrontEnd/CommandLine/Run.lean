import FrontEnd.Check
import FrontEnd.CommandLine.Parse
import FrontEnd.Infix.Resolve

/-!
# FrontEnd.CommandLine.Run

What the program does for a command line: log lines and results on standard output, and an
error report if something failed.

* `Execution` — the exit status and everything written.
* `reportLines` — an error report: what could not be done, and why.
* `runCommand` — one command; `run` — a whole command line.
-/

namespace FrontEnd.CommandLine

structure Execution where
  status : Nat
  /-- The lines of standard output. A line may hold line breaks of its own. -/
  output : List String
  /-- The lines of standard error. -/
  report : List String
  deriving DecidableEq, Repr

/-- Everything on standard output. -/
def Execution.stdout (e : Execution) : String := String.join (e.output.map (· ++ "\n"))

def versionNumber : String := "0.0.0"

/-- A message as one entry of a report: its first line numbered, the others indented. -/
def reportEntry (index : Nat) (message : String) : List String :=
  match message.splitOn "\n" with
  | [] => []
  | first :: more =>
    Text.trimEnd ("   " ++ toString index ++ ": " ++ first)
      :: more.map fun line => Text.trimEnd ("      " ++ line)

def reportLines (context cause : String) : List String :=
  "Error:" :: reportEntry 0 context ++ reportEntry 1 cause

/-- The log lines that a threshold lets through, as they are printed. -/
def shownLog (threshold : Threshold) (log : List LogLine) : List String :=
  (log.filter fun line => threshold.keeps line.level).map LogLine.onConsole

def succeed (output : List String) : Execution := ⟨0, output, []⟩

def fail (output : List String) (context cause : String) : Execution :=
  ⟨1, output, reportLines context cause⟩

/-- The output of a scan: what it reports, and every token on a line of its own. -/
def listing (threshold : Threshold) (events : List ScanEvent) : List String :=
  events.flatMap fun event =>
    shownLog threshold [event.logLine] ++
      match event with
      | .token _ token => [token.display]
      | _ => []

/-- Lists the tokens of a file up to the first error. -/
def runLex (threshold : Threshold) (file : String) (trace : Bool)
    (bytes : Except ReadFault ByteArray) : Execution :=
  match Scanner.ofFile bytes trace with
  | .error error => fail [] ("could not read " ++ Text.quote file) error.message
  | .ok scanner =>
    let drained := scanner.drain
    let output := listing threshold drained.events
    match drained.error? with
    | some error => fail output ("could not scan " ++ Text.quote file) error.message
    | none => succeed output

/-- Has a file recognized; says nothing if it is a program. -/
def runParse (threshold : Threshold) (file : String) (trace : Bool)
    (bytes : Except ReadFault ByteArray) : Execution :=
  let opened := Check.openFile file bytes trace
  let checked := Check.recognize opened
  let output := shownLog threshold checked.log
  match opened.result, checked.result with
  | .error error, _ => fail output ("could not scan " ++ Text.quote file) error.message
  | .ok _, .error error => fail output (Text.quote file ++ " is not a valid program") error.message
  | .ok _, .ok () =>
    succeed (output ++ shownLog threshold [⟨.debug, .program, "recognized " ++ Text.quote file⟩])

/-- Puts an expression into postfix order. -/
def runResolve (threshold : Threshold) (expression : List String) : Execution :=
  let infixText := " ".intercalate expression
  let output := shownLog threshold (Infix.logAt threshold infixText)
  match Infix.resolveText infixText with
  | .error error => fail output ("could not resolve " ++ Text.quote infixText) error.message
  | .ok resolved => succeed (output ++ [Text.trimEnd resolved])

def runCommand (threshold : Threshold) (command : Command)
    (read : String → Except ReadFault ByteArray) : Execution :=
  match command with
  | .lex file trace => runLex threshold file trace (read file)
  | .parse file trace => runParse threshold file trace (read file)
  | .resolve expression => runResolve threshold expression

/-- The log lines at the start of every run. -/
def greeting (arguments : Arguments) : List LogLine :=
  [⟨.trace, .program, "starting sirc with args: " ++ arguments.debug⟩,
    ⟨.debug, .program, "sirc version: " ++ versionNumber⟩]

def usage : List String :=
  ["Usage: sirc [-v|-q] lex [--trace] FILE",
    "       sirc [-v|-q] parse [--trace] FILE",
    "       sirc [-v|-q] postfix EXPRESSION..."]

def UsageError.message : UsageError → String
  | nothing => "a command is missing"
  | missingCommand => "a command is missing"
  | unknownCommand => "unknown command"
  | unknownArgument => "unexpected argument"
  | missingArgument => "an argument is missing"
  | conflict => "-v and -q cannot be used together"
  | repeatedFlag => "an option was given twice"
  | tooOften => "an option was given too often"
  | unwantedValue => "an option was given a value that it does not take"
  | emptyFile => "a file name is empty"
  | help => "help"
  | version => "version"

/-- Runs a command line. `read` gives the content of a file by its path. -/
def run (arguments : List String) (read : String → Except ReadFault ByteArray) : Execution :=
  match parse arguments with
  | .error .help => succeed ("Scans and recognizes sir source code" :: "" :: usage)
  | .error .version => succeed ["sirc_cli " ++ versionNumber]
  | .error error => ⟨2, [], ("error: " ++ error.message) :: "" :: usage⟩
  | .ok arguments =>
    let threshold := arguments.verbosity.threshold
    let execution := runCommand threshold arguments.command read
    { execution with output := shownLog threshold (greeting arguments) ++ execution.output }

end FrontEnd.CommandLine
