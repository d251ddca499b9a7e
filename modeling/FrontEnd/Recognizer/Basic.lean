import FrontEnd.Recognizer.Event
import FrontEnd.Token.Stream

/-!
# FrontEnd.Recognizer.Basic

The recognizer: a cursor over a token stream that looks one token ahead and never goes back,
and the operations that productions are made of.

* `Recognizer` — the state: the lookahead, the tokens behind it, and what was done so far.
* `Recog` — a computation on it that may stop.
* `matchKind`, `matchKeyword` — consume the lookahead if it is as wanted.
* `expect`, `expectKeyword` — the same, with a recoverable refusal otherwise.
* `cut` — makes a refusal fatal.
* `within` — runs a production under its name.
* `attempt` — runs a production that may refuse as long as it consumed nothing.
* `repeatWhile` — a loop that ends when nothing more is consumed.
-/

namespace FrontEnd

structure Recognizer where
  lookahead : Token
  /-- The tokens behind the lookahead. -/
  rest : TokenStream
  /-- The label under which errors name the source. -/
  file : String
  /-- The line of the token behind the last keyword matched; 0 before the first. -/
  line : Nat
  verbose : Bool
  /-- All tokens consumed, in order. -/
  matched : Array Token
  /-- The names of the open productions, the innermost first. -/
  nesting : List String
  /-- Whether a program was rejected. -/
  poisoned : Bool
  reports : Array Report

abbrev Recog := EStateM Stop Recognizer

namespace Recognizer

/-- A recognizer at the first token; an empty stream is at its end, on line 0. -/
def ofTokens (tokens : TokenStream) (file : String) (verbose : Bool) : Recognizer :=
  { lookahead := tokens.headD (Token.eof 0)
    rest := tokens.tail
    file := file
    line := 0
    verbose := verbose
    matched := #[]
    nesting := []
    poisoned := false
    reports := #[] }

/-- The texts of all tokens consumed, each with a blank behind it. -/
def matchedText (r : Recognizer) : String :=
  String.join (r.matched.toList.map fun token => token.text ++ " ")

def note (level : Level) (event : RecognizerEvent) (r : Recognizer) : Recognizer :=
  { r with reports := r.reports.push ⟨level, event⟩ }

/-- Notes what a verbose recognizer tells openly and any other only traces. -/
def announce (event : RecognizerEvent) (r : Recognizer) : Recognizer :=
  r.note (if r.verbose then .info else .trace) event

/-- Past the last token, an end of input follows on the line of the token before. -/
def consume (r : Recognizer) : Recognizer :=
  { r with
    lookahead := r.rest.headD (Token.eof r.lookahead.line)
    rest := r.rest.tail
    matched := r.matched.push r.lookahead }

/-- Follows the line of the lookahead. -/
def track (r : Recognizer) : Recognizer := { r with line := r.lookahead.line }

def enter (name : String) (r : Recognizer) : Recognizer :=
  let noted := r.note .trace (.entering name r.lookahead)
  { noted with nesting := name :: noted.nesting }

def leave (name : String) (r : Recognizer) : Recognizer :=
  let popped := { r with nesting := r.nesting.tail }
  popped.note .trace (.leaving name r.lookahead)

def syntaxError (fault : SyntaxFault) (r : Recognizer) : SyntaxError :=
  ⟨⟨fault, r.file, r.line⟩, some r.nesting.reverse⟩

/-- The recoverable refusal of the lookahead where `what` was expected. -/
def refusal (what : String) (r : Recognizer) : Refusal :=
  .recoverable (r.syntaxError (.expected what r.lookahead))

/-- How many tokens are left, an end of input as lookahead left out. -/
def pending (r : Recognizer) : Nat :=
  r.rest.length + if r.lookahead.kind = .eof then 0 else 1

def matchKind (kind : TokenKind) : Recog Bool := fun r =>
  if r.lookahead.kind = kind then
    .ok true (r.announce (.matchedToken r.lookahead)).consume
  else .ok false (r.announce (.rejectedToken r.lookahead kind))

def matchKeyword (keyword : Keyword) : Recog Bool := fun r =>
  if r.lookahead.isKeyword keyword then
    .ok true (r.announce (.matchedKeyword keyword)).consume.track
  else .ok false (r.announce (.rejectedKeyword r.lookahead keyword))

/-- Stops with the recoverable refusal of the lookahead. -/
def refuse {α : Type} (what : String) : Recog α := fun r =>
  .error (.refused (r.refusal what)) r

def expect (kind : TokenKind) (what : String) : Recog Unit := do
  if ← matchKind kind then return () else refuse what

def expectKeyword (keyword : Keyword) (what : String) : Recog Unit := do
  if ← matchKeyword keyword then return () else refuse what

/-- Whatever refusal ends the computation is fatal. -/
def cut {α : Type} (body : Recog α) : Recog α := fun r =>
  match body r with
  | .ok a r' => .ok a r'
  | .error (.refused refusal) r' => .error (.refused refusal.cut) r'
  | .error .misuse r' => .error .misuse r'

/-- Runs a production, which is open under its name meanwhile. -/
def within {α : Type} (name : String) (body : Recog α) : Recog α := fun r =>
  match body (r.enter name) with
  | .ok a r' => .ok a (r'.leave name)
  | .error (.refused refusal) r' => .error (.refused refusal) (r'.leave name)
  | .error .misuse r' => .error .misuse r'

/-- Whether the production went through. It did not if it refused recoverably, for which it
must have consumed nothing; a fatal refusal stays one. -/
def attempt (name : String) (body : Recog Unit) : Recog Bool := fun r =>
  let before := r.matched.size
  match within name body r with
  | .ok () r' => .ok true r'
  | .error (.refused (.recoverable _)) r' =>
    if r'.matched.size = before then .ok false r' else .error .misuse r'
  | .error stop r' => .error stop r'

/-- Runs the step again and again while it answers `true` and fewer tokens are left than
before. -/
def repeatWhile (step : Recog Bool) : Recog Unit := fun r =>
  let before := r.pending
  match step r with
  | .ok true r' => if r'.pending < before then repeatWhile step r' else .ok () r'
  | .ok false r' => .ok () r'
  | .error stop r' => .error stop r'
termination_by r => r.pending

end Recognizer

end FrontEnd
