import FrontEnd.Proofs.Recognizer.Composition
import FrontEnd.Recognizer.Script

/-!
# FrontEnd.Proofs.Recognizer.Blind

Computations that cannot tell one token stream from another but by what the operations answer.

* `Recog.Blind` — what such computations are made of. They are made of operations
  (`Recog.Blind.operates`).
* `Recog.Composed.blind` — the productions of the grammar are blind.
* `Recog.blind_run` — and so are the productions given as a `Script`.
-/

namespace FrontEnd
namespace Recog

open Recognizer Recognizer.Grammar

/-- Computations that go by the answers of the operations alone: what they do does not depend on
the tokens or on what a refusal says. -/
inductive Blind : {α : Type} → Recog α → Prop
  | pure {α : Type} (a : α) : Blind (pure a)
  | refuse {α : Type} (what : String) : Blind (refuse what : Recog α)
  | matchKind (kind : TokenKind) : Blind (matchKind kind)
  | matchKeyword (k : Keyword) : Blind (matchKeyword k)
  | report (storage : Storage) (what : Declared) : Blind (report storage what)
  | endOfInput : Blind endOfInput
  | bind {α β : Type} {body : Recog α} {f : α → Recog β} : Blind body → (∀ a, Blind (f a)) →
    Blind (body >>= f)
  | cut {α : Type} {body : Recog α} : Blind body → Blind (cut body)
  | within {α : Type} {body : Recog α} (name : String) : Blind body → Blind (within name body)
  | attempt {body : Recog Unit} (name : String) : Blind body → Blind (attempt name body)
  | otherwise {α : Type} {body other : Recog α} : Blind body → Blind other →
    Blind (otherwise body other)
  | repeatWhile {step : Recog Bool} : Blind step → Blind (repeatWhile step)

namespace Blind

variable {α : Type} {body : Recog α}

theorem operates {judging : Prop} (h : Blind body) : Operates judging body := by
  induction h with
  | pure a => exact .pure a
  | refuse what => exact .refuse what
  | matchKind kind => exact .matchKind kind
  | matchKeyword k => exact .matchKeyword k
  | report storage what => exact .report storage what
  | endOfInput => exact operates_endOfInput
  | bind _ _ ih ihf => exact .bind ih ihf
  | cut _ ih => exact ih.cut
  | within name _ ih => exact .within name ih
  | attempt name _ ih => exact .attempt name ih
  | otherwise _ _ ih iho => exact ih.otherwise iho
  | repeatWhile _ ih => exact ih.repeatWhile

theorem steps (h : Blind body) (r : Recognizer) : Steps False r (leaves body r) :=
  h.operates.steps r

theorem restores (h : Blind body) (r : Recognizer) : Restores body r :=
  (h.operates : Operates False body).restores r

theorem ite {other : Recog α} (found : Bool) (h : Blind body) (ho : Blind other) :
    Blind (if found then body else other) := by
  cases found
  · exact ho
  · exact h

theorem expect (kind : TokenKind) (what : String) : Blind (expect kind what) :=
  .bind (.matchKind kind) fun found => .ite found (.pure ()) (.refuse what)

theorem expectKeyword (k : Keyword) (what : String) : Blind (expectKeyword k what) :=
  .bind (.matchKeyword k) fun found => .ite found (.pure ()) (.refuse what)

end Blind

/-- What a production is made of is blind. -/
theorem Composed.blind {runs : String → String → Prop} {owner : String} {α : Type} {body : Recog α}
    (h : Composed runs owner body) : Blind body := by
  induction h with
  | pure a => exact .pure a
  | refuse what => exact .refuse what
  | matchKind kind => exact .matchKind kind
  | matchKeyword k => exact .matchKeyword k
  | report storage what => exact .report storage what
  | endOfInput => exact .endOfInput
  | bind _ _ ih ihf => exact .bind ih ihf
  | cut _ ih => exact .cut ih
  | within _ _ ih => exact .within _ ih
  | attempt _ _ ih => exact .attempt _ ih
  | otherwise _ _ ih iho => exact .otherwise ih iho
  | repeatWhile _ ih => exact .repeatWhile ih

theorem blind_program : Blind program := composed_program.blind

/-- Productions given as data go by the answers only. -/
theorem blind_run (script : Script) : Blind script.run := by
  have commit {committed : Bool} {body : Recog Unit} (h : Blind body) :
      Blind (Script.commit committed body) := by
    cases committed
    · exact h
    · exact .cut h
  induction script with
  | done => exact .pure ()
  | matchKind kind next ih => exact .bind (.matchKind kind) fun _ => ih
  | matchKeyword k next ih => exact .bind (.matchKeyword k) fun _ => ih
  | expect kind what committed next ih => exact .bind (commit (.expect kind what)) fun _ => ih
  | expectKeyword k what committed next ih =>
    exact .bind (commit (.expectKeyword k what)) fun _ => ih
  | refuse what committed next ih => exact .bind (commit (.refuse what)) fun _ => ih
  | within name body committed next ihb ih => exact .bind (commit (.within name ihb)) fun _ => ih
  | attempt name body next ihb ih => exact .bind (.attempt name ihb) fun _ => ih

end Recog
end FrontEnd
