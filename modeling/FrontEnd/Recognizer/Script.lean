import FrontEnd.Recognizer.Grammar

/-!
# FrontEnd.Recognizer.Script

Productions put together from the recognizer's operations, and sessions: one operation after the
other on one recognizer.

* `Script` — a production as data; `Script.run` is the computation it stands for.
* `Action` — an operation asked for from outside; `Action.perform` gives its answer.
* `Session.run` — the answers to a list of actions. A misuse ends the session.
-/

namespace FrontEnd

/-- The steps of a production, in order. `committed` steps refuse fatally. -/
inductive Script where
  | done
  | matchKind (kind : TokenKind) (next : Script)
  | matchKeyword (keyword : Keyword) (next : Script)
  | expect (kind : TokenKind) (what : String) (committed : Bool) (next : Script)
  | expectKeyword (keyword : Keyword) (what : String) (committed : Bool) (next : Script)
  | refuse (what : String) (committed : Bool) (next : Script)
  | within (name : String) (body : Script) (committed : Bool) (next : Script)
  | attempt (name : String) (body : Script) (next : Script)
  deriving DecidableEq

namespace Script

/-- The computation, cut if it is committed. -/
def commit (committed : Bool) (body : Recog Unit) : Recog Unit :=
  if committed then Recognizer.cut body else body

/-- A match may fail without consequence, and so may an attempt. -/
def run : Script → Recog Unit
  | done => return ()
  | matchKind kind next => do
    let _ ← Recognizer.matchKind kind
    next.run
  | matchKeyword keyword next => do
    let _ ← Recognizer.matchKeyword keyword
    next.run
  | expect kind what committed next => do
    commit committed (Recognizer.expect kind what)
    next.run
  | expectKeyword keyword what committed next => do
    commit committed (Recognizer.expectKeyword keyword what)
    next.run
  | refuse what committed next => do
    commit committed (Recognizer.refuse what)
    next.run
  | within name body committed next => do
    commit committed (Recognizer.within name body.run)
    next.run
  | attempt name body next => do
    let _ ← Recognizer.attempt name body.run
    next.run

end Script

inductive Action where
  | peek
  | matchKind (kind : TokenKind)
  | matchKeyword (keyword : Keyword)
  | expect (kind : TokenKind) (what : String)
  | expectKeyword (keyword : Keyword) (what : String)
  | refusalOf (what : String)
  | within (name : String) (body : Script)
  | attempt (name : String) (body : Script)
  | recognize
  deriving DecidableEq

inductive Answer where
  | token (token : Token)
  | matched (yes : Bool)
  | done
  | tried (succeeded : Bool)
  | refused (refusal : Refusal)
  /-- An error from an operation that knows no recoverable ones. -/
  | failed (error : SyntaxError)
  | misuse
  deriving DecidableEq

namespace Action

/-- The answer to a computation, from its value or its refusal. -/
def answer {α : Type} (value : α → Answer) (refused : Refusal → Answer) (body : Recog α)
    (r : Recognizer) : Answer × Recognizer :=
  match body r with
  | .ok a r' => (value a, r')
  | .error (.refused refusal) r' => (refused refusal, r')
  | .error .misuse r' => (.misuse, r')

def perform : Action → Recognizer → Answer × Recognizer
  | peek, r => (.token r.lookahead, r)
  | matchKind kind, r => answer .matched .refused (Recognizer.matchKind kind) r
  | matchKeyword keyword, r => answer .matched .refused (Recognizer.matchKeyword keyword) r
  | expect kind what, r => answer (fun _ => .done) .refused (Recognizer.expect kind what) r
  | expectKeyword keyword what, r =>
    answer (fun _ => .done) .refused (Recognizer.expectKeyword keyword what) r
  | refusalOf what, r => (.refused (r.refusal what), r)
  | within name body, r => answer (fun _ => .done) .refused (Recognizer.within name body.run) r
  | attempt name body, r =>
    answer .tried (fun refusal => .failed refusal.error) (Recognizer.attempt name body.run) r
  | recognize, r =>
    answer (fun _ => .done) (fun refusal => .failed refusal.error) Recognizer.recognize r

end Action

/-- The answers to the actions, each with the recognizer afterwards. -/
def Session.run (r : Recognizer) : List Action → List (Answer × Recognizer)
  | [] => []
  | action :: rest =>
    match action.perform r with
    | (.misuse, r') => [(.misuse, r')]
    | (answer, r') => (answer, r') :: run r' rest

end FrontEnd
