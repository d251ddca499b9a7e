import FrontEnd.Infix.Resolve

/-!
# FrontEnd.Proofs.Infix.Runs

The resolver's run over some tokens, without what it does at the end.

* `Infix.Runs index stack tokens out after` — the tokens, which begin at `index`, send `out` to the
  output and make of the stack `after`.
* `Infix.runs_append_iff` — a run over tokens and more tokens is a run and one that goes on from it.
* `Infix.resolveFrom_eq_ok_iff` — the resolver answers what a run sends, and behind it what then
  waits on the stack, unless a parenthesis is left open there.
* `Infix.getElem?_historyFrom_eq_some_iff` — the stacks of the history are those that runs leave.
-/

namespace FrontEnd
namespace Infix

/-- No token on the way is an error. -/
inductive Runs : Nat → Stack → List String → List String → Stack → Prop
  | nil {index : Nat} {stack : Stack} : Runs index stack [] [] stack
  | cons {index : Nat} {stack between after : Stack} {token : String}
      {rest emitted out : List String} :
    step index token stack = .ok (emitted, between) → Runs (index + 1) between rest out after →
    Runs index stack (token :: rest) (emitted ++ out) after

variable {index : Nat} {stack after : Stack} {a b tokens out : List String}

theorem runs_singleton {token : String} (h : step index token stack = .ok (out, after)) :
    Runs index stack [token] out after := by
  rw [← List.append_nil out]
  exact .cons h .nil

theorem exists_runs_nil_iff : (∃ out, Runs index stack [] out after) ↔ stack = after := by
  constructor
  · rintro ⟨_, ⟨⟩⟩
    rfl
  · rintro rfl
    exact ⟨[], .nil⟩

theorem exists_runs_cons_iff {token : String} {emitted : List String} {between : Stack}
    (h : step index token stack = .ok (emitted, between)) :
    (∃ out, Runs index stack (token :: tokens) out after) ↔
      ∃ out, Runs (index + 1) between tokens out after := by
  constructor
  · rintro ⟨_, hruns⟩
    cases hruns with
    | cons hstep hrest =>
      cases hstep.symm.trans h
      exact ⟨_, hrest⟩
  · rintro ⟨out, hruns⟩
    exact ⟨emitted ++ out, .cons h hruns⟩

theorem not_exists_runs_of_error {token : String} {error : ResolveError}
    (h : step index token stack = .error error) :
    ¬∃ out, Runs index stack (token :: tokens) out after := by
  rintro ⟨_, hruns⟩
  cases hruns with
  | cons hstep _ => cases hstep.symm.trans h

theorem runs_append_iff :
    Runs index stack (a ++ b) out after ↔
      ∃ front between back, Runs index stack a front between ∧
        Runs (index + a.length) between b back after ∧ out = front ++ back := by
  constructor
  · intro h
    induction a generalizing index stack out with
    | nil => exact ⟨[], stack, out, .nil, h, rfl⟩
    | cons token a ih =>
      cases h with
      | @cons _ _ first _ _ _ emitted _ hstep hrest =>
        obtain ⟨front, between, back, hfront, hback, rfl⟩ := ih hrest
        rw [Nat.add_assoc, Nat.add_comm 1] at hback
        exact ⟨emitted ++ front, between, back, .cons hstep hfront, hback,
          (List.append_assoc _ _ _).symm⟩
  · rintro ⟨front, between, back, hfront, hback, rfl⟩
    induction hfront with
    | nil => exact hback
    | cons hstep _ ih =>
      rw [List.length_cons, Nat.add_comm _ 1, ← Nat.add_assoc] at hback
      rw [List.append_assoc]
      exact .cons hstep (ih hback)

theorem Runs.append {between : Stack} {front back : List String}
    (ha : Runs index stack a front between)
    (hb : Runs (index + a.length) between b back after) :
    Runs index stack (a ++ b) (front ++ back) after :=
  runs_append_iff.2 ⟨front, between, back, ha, hb, rfl⟩

theorem resolveFrom_eq_ok_iff :
    resolveFrom index stack tokens = .ok out ↔
      ∃ sent after last, Runs index stack tokens sent after ∧ flush after = .ok last ∧
        out = sent ++ last := by
  constructor
  · intro h
    induction tokens generalizing index stack out with
    | nil => exact ⟨[], stack, out, .nil, h, rfl⟩
    | cons token tokens ih =>
      rw [resolveFrom] at h
      cases hstep : step index token stack with
      | error error =>
        rw [hstep] at h
        cases h
      | ok answer =>
        obtain ⟨emitted, between⟩ := answer
        rw [hstep] at h
        cases hrest : resolveFrom (index + 1) between tokens with
        | error error =>
          simp only [hrest] at h
          cases h
        | ok later =>
          simp only [hrest] at h
          cases h
          obtain ⟨sent, after, last, hruns, hflush, rfl⟩ := ih hrest
          exact ⟨emitted ++ sent, after, last, .cons hstep hruns, hflush,
            (List.append_assoc _ _ _).symm⟩
  · rintro ⟨sent, after, last, hruns, hflush, rfl⟩
    induction hruns with
    | nil => exact hflush
    | cons hstep _ ih =>
      rw [resolveFrom, hstep]
      simp only [ih hflush]
      rw [List.append_assoc]
      rfl

/-- The stack in the history is the one that the tokens up to there leave. -/
theorem getElem?_historyFrom_eq_some_iff {n : Nat} {token : String} :
    (historyFrom index stack tokens)[n]? = some (token, after) ↔
      tokens[n]? = some token ∧ ∃ out, Runs index stack (tokens.take (n + 1)) out after := by
  induction tokens generalizing n index stack with
  | nil => simp [historyFrom]
  | cons first tokens ih =>
    rw [historyFrom, List.take_succ_cons]
    cases hstep : step index first stack with
    | error error =>
      exact iff_of_false (by simp) fun h => not_exists_runs_of_error hstep h.2
    | ok answer =>
      obtain ⟨emitted, between⟩ := answer
      rw [exists_runs_cons_iff hstep]
      cases n with
      | zero =>
        rw [List.take_zero, exists_runs_nil_iff]
        simp
      | succ n => exact ih

end Infix
end FrontEnd
