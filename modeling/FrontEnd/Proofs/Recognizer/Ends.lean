import FrontEnd.Recognizer.Grammar

/-!
# FrontEnd.Proofs.Recognizer.Ends

How a computation on a recognizer ends, as a weakest precondition.

* `Recog.Post` — what is to hold at the end: one condition for each of the three ways to end.
* `Recog.Ends body r post` — run from `r`, `body` ends as `post` says, and not by a misuse.
* `Recog.ends_bind`, `Recog.ends_cut`, … — one equation for each way to build a computation.
* `Recog.ends_repeatWhile` — the loop, by an invariant: a step that answers `true` keeps it and
  leaves fewer tokens.
-/

namespace FrontEnd
namespace Recog

open Recognizer

/-- What is to hold at the end of a computation: after success with its value, after a
recoverable and after a fatal refusal with the error. -/
structure Post (α : Type) where
  ok : α → Recognizer → Prop
  recoverable : SyntaxError → Recognizer → Prop
  fatal : SyntaxError → Recognizer → Prop

def Ends {α : Type} (body : Recog α) (r : Recognizer) (post : Post α) : Prop :=
  match body r with
  | .ok a r' => post.ok a r'
  | .error (.refused (.recoverable error)) r' => post.recoverable error r'
  | .error (.refused (.fatal error)) r' => post.fatal error r'
  | .error .misuse _ => False

section Rules

variable {α β : Type} {body : Recog α} {r : Recognizer} {post : Post α}

theorem Ends.mono {post' : Post α} (h : Ends body r post)
    (ok : ∀ a r', post.ok a r' → post'.ok a r')
    (recoverable : ∀ e r', post.recoverable e r' → post'.recoverable e r')
    (fatal : ∀ e r', post.fatal e r' → post'.fatal e r') : Ends body r post' := by
  unfold Ends at h ⊢
  split at h
  · exact ok _ _ h
  · exact recoverable _ _ h
  · exact fatal _ _ h
  · exact h

theorem ends_pure {a : α} : Ends (pure a) r post ↔ post.ok a r := Iff.rfl

theorem ends_bind {f : α → Recog β} {post : Post β} :
    Ends (body >>= f) r post ↔
      Ends body r { post with ok := fun a r' => Ends (f a) r' post } := by
  simp only [Ends, bind, EStateM.bind]
  cases body r with
  | ok a r' => rfl
  | error stop r' => cases stop with
    | refused refusal => cases refusal <;> rfl
    | misuse => rfl

theorem ends_modify {change : Recognizer → Recognizer} {post : Post Unit} :
    Ends (modify change) r post ↔ post.ok () (change r) := Iff.rfl

theorem ends_refuse {what : String} :
    Ends (refuse what) r post ↔
      post.recoverable (r.syntaxError (.expected what r.lookahead)) r := Iff.rfl

theorem ends_cut :
    Ends (cut body) r post ↔ Ends body r { post with recoverable := post.fatal } := by
  simp only [Ends, cut]
  cases body r with
  | ok a r' => rfl
  | error stop r' => cases stop with
    | refused refusal => cases refusal <;> rfl
    | misuse => rfl

theorem ends_within {name : String} :
    Ends (within name body) r post ↔
      Ends body (r.enter name)
        ⟨fun a r' => post.ok a (r'.leave name), fun e r' => post.recoverable e (r'.leave name),
          fun e r' => post.fatal e (r'.leave name)⟩ := by
  simp only [Ends, within]
  cases body (r.enter name) with
  | ok a r' => rfl
  | error stop r' => cases stop with
    | refused refusal => cases refusal <;> rfl
    | misuse => rfl

theorem ends_attempt {name : String} {body : Recog Unit} {post : Post Bool} :
    Ends (attempt name body) r post ↔
      Ends (within name body) r
        ⟨fun _ r' => post.ok true r',
          fun _ r' => r'.matched.size = r.matched.size ∧ post.ok false r', post.fatal⟩ := by
  simp only [Ends, attempt]
  cases within name body r with
  | ok a r' => rfl
  | error stop r' => cases stop with
    | refused refusal => cases refusal with
      | recoverable e =>
        by_cases h : r'.matched.size = r.matched.size <;> simp [h]
      | fatal e => rfl
    | misuse => rfl

theorem ends_matchKind {kind : TokenKind} {post : Post Bool} :
    Ends (matchKind kind) r post ↔
      (r.lookahead.kind = kind →
        post.ok true (r.announce (.matchedToken r.lookahead)).consume) ∧
      (r.lookahead.kind ≠ kind →
        post.ok false (r.announce (.rejectedToken r.lookahead kind))) := by
  unfold Ends matchKind
  by_cases h : r.lookahead.kind = kind <;> simp [h]

theorem ends_matchKeyword {keyword : Keyword} {post : Post Bool} :
    Ends (matchKeyword keyword) r post ↔
      (r.lookahead.isKeyword keyword = true →
        post.ok true (r.announce (.matchedKeyword keyword)).consume.track) ∧
      (r.lookahead.isKeyword keyword = false →
        post.ok false (r.announce (.rejectedKeyword r.lookahead keyword))) := by
  unfold Ends matchKeyword
  cases h : r.lookahead.isKeyword keyword <;> simp

/-- The loop. Its step is given the invariant; where it goes on it has to keep the invariant and
to leave fewer tokens, and where it stops the loop has to be done. -/
theorem ends_repeatWhile {step : Recog Bool} {post : Post Unit} (inv : Recognizer → Prop)
    (hstep : ∀ r, inv r → Ends step r
      { post with ok := fun again r' =>
          if again then inv r' ∧ r'.pending < r.pending else post.ok () r' })
    (h : inv r) : Ends (repeatWhile step) r post := by
  induction hn : r.pending using Nat.strongRecOn generalizing r with
  | ind n ih =>
    have hs := hstep r h
    unfold Ends at hs ⊢
    rw [repeatWhile]
    cases hr : step r with
    | ok again r' =>
      rw [hr] at hs
      cases again with
      | true =>
        obtain ⟨hinv, hlt⟩ := hs
        simp only [if_pos hlt]
        exact ih r'.pending (hn ▸ hlt) hinv rfl
      | false => exact hs
    | error stop r' =>
      rw [hr] at hs
      cases stop with
      | refused refusal => cases refusal <;> exact hs
      | misuse => exact hs

end Rules

end Recog
end FrontEnd
