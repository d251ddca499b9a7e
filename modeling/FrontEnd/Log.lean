import FrontEnd.Text.Terminal

/-!
# FrontEnd.Log

What the program tells about its own work while it runs.

* `Level` — how severe a line is; `Level.rank` orders the levels, the most severe first.
* `Part` — which part of the program speaks.
* `LogLine` — one line; `LogLine.onConsole` is its printed form.
* `Threshold` — what a run lets through, and `Threshold.keeps` the test.
-/

namespace FrontEnd

inductive Level where
  | error
  | warn
  | info
  | debug
  | trace
  deriving DecidableEq, Repr

namespace Level

def all : List Level := [error, warn, info, debug, trace]

/-- The more severe, the smaller. -/
def rank : Level → Nat
  | error => 0
  | warn => 1
  | info => 2
  | debug => 3
  | trace => 4

def name : Level → String
  | error => "ERROR"
  | warn => "WARN"
  | info => "INFO"
  | debug => "DEBUG"
  | trace => "TRACE"

/-- The name, filled up with blanks on the left to the width of the longest. -/
def column (level : Level) : String :=
  String.ofList (List.replicate (5 - level.name.length) ' ') ++ level.name

end Level

/-- The parts of the program that write log lines. -/
inductive Part where
  | scanner
  | recognizer
  | resolver
  | program
  deriving DecidableEq, Repr

structure LogLine where
  level : Level
  part : Part
  message : String
  deriving DecidableEq, Repr

/-- As a line of standard output: the level in a column of its own, then the message, with the
characters written out that a terminal would obey. -/
def LogLine.onConsole (line : LogLine) : String :=
  line.level.column ++ " " ++ Text.forTerminal line.message

/-- The least severe level that is still shown; `none` shows nothing. -/
abbrev Threshold := Option Level

namespace Threshold

def keeps (threshold : Threshold) (level : Level) : Bool :=
  match threshold with
  | none => false
  | some least => decide (level.rank ≤ least.rank)

def name : Threshold → String
  | none => "off"
  | some .error => "error"
  | some .warn => "warn"
  | some .info => "info"
  | some .debug => "debug"
  | some .trace => "trace"

end Threshold

end FrontEnd
