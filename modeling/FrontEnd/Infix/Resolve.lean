import FrontEnd.Infix.Operator
import FrontEnd.Log
import FrontEnd.Text.Blank
import FrontEnd.Text.Quoted

/-!
# FrontEnd.Infix.Resolve

From infix to postfix order: operands at once, operators once everything that binds them less
tightly is settled, parentheses not at all.

* `Infix.Stack` — what waits for its place: operators and open parentheses, the last first.
* `Infix.step` — one token: what it sends to the output and the stack it leaves.
* `Infix.resolve` — the postfix order of a list of tokens.
* `Infix.resolveText` — the same of a text and as a text.
* `Infix.history` — the stack after every token that was no error.
-/

namespace FrontEnd.Infix

inductive Pending where
  | operator (lexeme : String) (operator : InfixOperator)
  /-- An open parenthesis and its place among the tokens. -/
  | opened (index : Nat)
  deriving DecidableEq, Repr

abbrev Stack := List Pending

inductive ResolveError where
  | unmatchedClose (index : Nat)
  | unclosedOpen (index : Nat)
  deriving DecidableEq, Repr

namespace ResolveError

def index : ResolveError → Nat
  | unmatchedClose i => i
  | unclosedOpen i => i

def message : ResolveError → String
  | unmatchedClose i => "')' at token " ++ toString i ++ " has no matching '('"
  | unclosedOpen i => "'(' at token " ++ toString i ++ " is never closed"

end ResolveError

/-- The operators on top that bind at least as tightly as `strength`, and the stack below. -/
def popTighter (strength : Nat) : Stack → List String × Stack
  | .operator lexeme top :: rest =>
    if strength < top.strength then ([], .operator lexeme top :: rest)
    else
      let (emitted, below) := popTighter strength rest
      (lexeme :: emitted, below)
  | stack => ([], stack)

/-- The operators above the last open parenthesis, and the stack below it. -/
def popGroup? : Stack → Option (List String × Stack)
  | [] => none
  | .opened _ :: rest => some ([], rest)
  | .operator lexeme _ :: rest =>
    (popGroup? rest).map fun (emitted, below) => (lexeme :: emitted, below)

/-- Everything left at the end; it must be operators only. -/
def flush : Stack → Except ResolveError (List String)
  | [] => .ok []
  | .opened index :: _ => .error (.unclosedOpen index)
  | .operator lexeme _ :: rest => (flush rest).map (lexeme :: ·)

/-- What the token at `index` sends to the output, and the stack after it. -/
def step (index : Nat) (token : String) (stack : Stack) :
    Except ResolveError (List String × Stack) :=
  match InfixOperator.ofLexeme? token with
  | some operator =>
    let (emitted, below) := popTighter operator.strength stack
    .ok (emitted, .operator token operator :: below)
  | none =>
    if token = "(" then .ok ([], .opened index :: stack)
    else if token = ")" then
      match popGroup? stack with
      | some answer => .ok answer
      | none => .error (.unmatchedClose index)
    else .ok ([token], stack)

/-- The output from the token at `index` on. -/
def resolveFrom (index : Nat) (stack : Stack) : List String → Except ResolveError (List String)
  | [] => flush stack
  | token :: rest =>
    match step index token stack with
    | .error error => .error error
    | .ok (emitted, after) => (resolveFrom (index + 1) after rest).map (emitted ++ ·)

def resolve (tokens : List String) : Except ResolveError (List String) :=
  resolveFrom 0 [] tokens

/-- Tokens as a text, each with a blank behind it. -/
def spaced (tokens : List String) : String := String.join (tokens.map (· ++ " "))

/-- The postfix order of the words of a text. -/
def resolveText (text : String) : Except ResolveError String :=
  (resolve (Text.words text.toList)).map spaced

/-- Every token from `index` on with the stack that follows it, up to the first error. -/
def historyFrom (index : Nat) (stack : Stack) : List String → List (String × Stack)
  | [] => []
  | token :: rest =>
    match step index token stack with
    | .error _ => []
    | .ok (_, after) => (token, after) :: historyFrom (index + 1) after rest

def history (tokens : List String) : List (String × Stack) := historyFrom 0 [] tokens

def Pending.debug : Pending → String
  | operator lexeme op => "Operator(" ++ Text.quote lexeme ++ ", " ++ op.name ++ ")"
  | opened index => "Open(" ++ toString index ++ ")"

/-- The log line for a token and the stack after it, which is shown from the bottom up. -/
def logLine (token : String) (stack : Stack) : LogLine :=
  ⟨.trace, .resolver,
    "after " ++ Text.quote token ++ ": stack=["
      ++ ", ".intercalate (stack.reverse.map Pending.debug) ++ "]"⟩

def log (text : String) : List LogLine :=
  (history (Text.words text.toList)).map fun (token, stack) => logLine token stack

/-- The log, but nothing where the threshold keeps none of it. -/
def logAt (threshold : Threshold) (text : String) : List LogLine :=
  if threshold.keeps .trace then log text else []

end FrontEnd.Infix
