/-!
# FrontEnd.Proofs.AtEach

* `AtEach p list` — every item of the list is as `p` says, given the items before it.
* `atEach_cons`, `atEach_append_singleton` — what one more item in front, or at the end, adds.
* `perm_append_singleton` — what it adds to an order that is another one.
-/

namespace FrontEnd

/-- The items before come in their order. -/
def AtEach {α : Type} (p : List α → α → Prop) (list : List α) : Prop :=
  ∀ before item after, list = before ++ item :: after → p before item

variable {α : Type} {p : List α → α → Prop}

theorem atEach_nil : AtEach p [] := by
  intro before item after h
  cases before <;> cases h

theorem atEach_cons {first : α} {list : List α} :
    AtEach p (first :: list) ↔ p [] first ∧ AtEach (fun before => p (first :: before)) list := by
  constructor
  · intro h
    refine ⟨h [] first list rfl, fun before item after hlist => ?_⟩
    exact h (first :: before) item after (congrArg (first :: ·) hlist)
  · intro h before item after hlist
    cases before with
    | nil =>
      cases hlist
      exact h.1
    | cons other before =>
      cases hlist
      exact h.2 before item after rfl

theorem atEach_append_singleton {list : List α} {last : α} :
    AtEach p (list ++ [last]) ↔ AtEach p list ∧ p list last := by
  constructor
  · intro h
    refine ⟨fun before item after hlist => ?_, h list last [] rfl⟩
    exact h before item (after ++ [last]) (by rw [hlist, List.append_assoc, List.cons_append])
  · intro h before item after hlist
    rcases List.eq_nil_or_concat after with rfl | ⟨after, other, rfl⟩
    · obtain ⟨rfl, hitem⟩ := List.append_inj' hlist rfl
      cases hitem
      exact h.2
    · rw [List.concat_eq_append, ← List.cons_append, ← List.append_assoc] at hlist
      exact h.1 before item after (List.append_inj' hlist rfl).1

/-- One more item is in the middle of the one list, and at the end of the other. -/
theorem perm_append_singleton {a b list : List α} {item : α} (h : (a ++ b).Perm list) :
    (a ++ item :: b).Perm (list ++ [item]) :=
  List.perm_middle.trans ((h.cons item).trans (List.perm_append_singleton item list).symm)

end FrontEnd
