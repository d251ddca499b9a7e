import FrontEnd.Proofs.Infix.Conservation

/-!
# FrontEnd.Proofs.Infix.Groups

A group in parentheses resolves as it does alone, wherever it stands.

* `Infix.Atop base stack stack'` — the one stack stands on top of a base in the other; the places of
  open parentheses may differ. A run on the one is a run on the other (`Infix.Runs.atop`), if the
  base is a barrier.
* `Infix.runs_group` — so a group sends what it sends alone, and leaves the stack as it was.
* `Infix.resolveText_group` — in the place of an operand it sends this instead of the operand.
-/

namespace FrontEnd
namespace Infix

/-- No operator takes anything off the stack. -/
def Barrier (stack : Stack) : Prop := ∀ strength, Above strength stack

/-- The second stack is the first one on top of the base, but for the places of parentheses. -/
inductive Atop (base : Stack) : Stack → Stack → Prop
  | bottom : Atop base [] base
  | operator {lexeme : String} {operator : InfixOperator} {stack stack' : Stack} :
    Atop base stack stack' →
    Atop base (.operator lexeme operator :: stack) (.operator lexeme operator :: stack')
  | opened {index index' : Nat} {stack stack' : Stack} : Atop base stack stack' →
    Atop base (.opened index :: stack) (.opened index' :: stack')

theorem barrier_nil : Barrier [] := fun _ => trivial

theorem barrier_opened {index : Nat} {stack : Stack} : Barrier (.opened index :: stack) :=
  fun _ => trivial

namespace Atop

variable {base stack stack' : Stack}

theorem refl (stack : Stack) : Atop [] stack stack := by
  induction stack with
  | nil => exact .bottom
  | cons pending stack ih =>
    cases pending with
    | operator lexeme operator => exact ih.operator
    | opened index => exact ih.opened

theorem popTighter (h : Atop base stack stack') (barrier : Barrier base) (strength : Nat) :
    ∃ emitted after after', Infix.popTighter strength stack = (emitted, after) ∧
      Infix.popTighter strength stack' = (emitted, after') ∧ Atop base after after' := by
  induction h with
  | bottom => exact ⟨[], [], base, rfl, popTighter_above (barrier strength), .bottom⟩
  | @operator lexeme operator stack stack' h ih =>
    by_cases hlt : strength < operator.strength
    · have stops (stack : Stack) : Infix.popTighter strength (.operator lexeme operator :: stack) =
          ([], .operator lexeme operator :: stack) := popTighter_above hlt
      exact ⟨[], _, _, stops stack, stops stack', h.operator⟩
    · obtain ⟨emitted, after, after', hpop, hpop', hafter⟩ := ih
      refine ⟨lexeme :: emitted, after, after', ?_, ?_, hafter⟩
      · rw [Infix.popTighter, if_neg hlt, hpop]
      · rw [Infix.popTighter, if_neg hlt, hpop']
  | opened h => exact ⟨[], _, _, rfl, rfl, h.opened⟩

theorem popGroup? {emitted : List String} {after : Stack} (h : Atop base stack stack')
    (hpop : Infix.popGroup? stack = some (emitted, after)) :
    ∃ after', Infix.popGroup? stack' = some (emitted, after') ∧ Atop base after after' := by
  induction h generalizing emitted with
  | bottom => cases hpop
  | operator _ ih =>
    rw [Infix.popGroup?, Option.map_eq_some_iff] at hpop
    obtain ⟨⟨later, below⟩, hpop, ⟨⟩⟩ := hpop
    obtain ⟨after', hpop', hafter⟩ := ih hpop
    exact ⟨after', by rw [Infix.popGroup?, hpop']; rfl, hafter⟩
  | opened h =>
    cases hpop
    exact ⟨_, rfl, h⟩

/-- What a stack sends at the end, it sends as well when a group around it is closed. -/
theorem popGroup?_of_flush {index : Nat} {last : List String} {below : Stack}
    (h : Atop (.opened index :: below) stack stack') (hflush : flush stack = .ok last) :
    Infix.popGroup? stack' = some (last, below) := by
  induction h generalizing last with
  | bottom =>
    cases hflush
    rfl
  | @operator lexeme operator stack stack' _ ih =>
    rw [flush] at hflush
    cases hlater : flush stack with
    | error error =>
      rw [hlater] at hflush
      cases hflush
    | ok later =>
      rw [hlater] at hflush
      cases hflush
      rw [Infix.popGroup?, ih hlater]
      rfl
  | opened => cases hflush

theorem flush {last : List String} (h : Atop [] stack stack')
    (hflush : Infix.flush stack = .ok last) : Infix.flush stack' = .ok last := by
  induction h generalizing last with
  | bottom => exact hflush
  | @operator lexeme operator stack stack' _ ih =>
    rw [Infix.flush] at hflush ⊢
    cases hlater : Infix.flush stack with
    | error error =>
      rw [hlater] at hflush
      cases hflush
    | ok later =>
      rw [hlater] at hflush
      rw [ih hlater]
      exact hflush
  | opened => cases hflush

theorem step {index index' : Nat} {token : String} {emitted : List String} {after : Stack}
    (h : Atop base stack stack') (barrier : Barrier base)
    (hstep : Infix.step index token stack = .ok (emitted, after)) :
    ∃ after', Infix.step index' token stack' = .ok (emitted, after') ∧ Atop base after after' := by
  unfold Infix.step at hstep ⊢
  cases hlookup : InfixOperator.ofLexeme? token with
  | some operator =>
    obtain ⟨sent, below, below', hpop, hpop', hbelow⟩ := h.popTighter barrier operator.strength
    simp only [hlookup, hpop] at hstep
    cases hstep
    simp only [hpop']
    exact ⟨_, rfl, hbelow.operator⟩
  | none =>
    simp only [hlookup] at hstep
    by_cases ho : token = "("
    · rw [if_pos ho] at hstep ⊢
      cases hstep
      exact ⟨_, rfl, h.opened⟩
    by_cases hc : token = ")"
    · rw [if_neg ho, if_pos hc] at hstep ⊢
      cases hpop : Infix.popGroup? stack with
      | none =>
        rw [hpop] at hstep
        cases hstep
      | some answer =>
        rw [hpop] at hstep
        cases hstep
        obtain ⟨after', hpop', hafter⟩ := h.popGroup? hpop
        rw [hpop']
        exact ⟨after', rfl, hafter⟩
    · rw [if_neg ho, if_neg hc] at hstep ⊢
      cases hstep
      exact ⟨stack', rfl, h⟩

end Atop

theorem Runs.atop {base stack stack' after : Stack} {index index' : Nat}
    {tokens out : List String} (hruns : Runs index stack tokens out after)
    (h : Atop base stack stack') (barrier : Barrier base) :
    ∃ after', Runs index' stack' tokens out after' ∧ Atop base after after' := by
  induction hruns generalizing stack' index' with
  | nil => exact ⟨stack', .nil, h⟩
  | cons hstep _ ih =>
    obtain ⟨between', hstep', hbetween⟩ := h.step barrier hstep
    obtain ⟨after', hrest, hafter⟩ := ih hbetween
    exact ⟨after', .cons hstep' hrest, hafter⟩

/-- The group is read above the parenthesis that opens it, which no operator passes. -/
theorem runs_group {index : Nat} {stack : Stack} {group sent : List String}
    (h : resolve group = .ok sent) :
    Runs index stack ("(" :: (group ++ [")"])) sent stack := by
  obtain ⟨early, after, last, hruns, hflush, rfl⟩ := resolveFrom_eq_ok_iff.1 h
  obtain ⟨after', hinside, hafter⟩ :=
    hruns.atop (.bottom : Atop (.opened index :: stack) [] _) barrier_opened
  have hclose : InfixOperator.ofLexeme? ")" = none := by decide
  have closing : step (index + 1 + group.length) ")" after' = .ok (last, stack) := by
    simp [step, hclose, hafter.popGroup?_of_flush hflush]
  rw [← List.nil_append (early ++ last)]
  exact .cons rfl (hinside.append (runs_singleton closing))

theorem resolve_wrapped {group sent : List String} (h : resolve group = .ok sent) :
    resolve ("(" :: (group ++ [")"])) = .ok sent :=
  resolveFrom_eq_ok_iff.2 ⟨sent, [], [], runs_group h, rfl, (List.append_nil _).symm⟩

theorem step_operand {index : Nat} {token : String} {stack : Stack} (h : isOperand token = true) :
    step index token stack = .ok ([token], stack) := by
  obtain ⟨hnone, ho, hc⟩ := isOperand_iff.1 h
  simp [step, hnone, ho, hc]

/-- Behind the operand the stack is as it was, and so it is behind the group. -/
theorem resolve_group {x : String} {left right group sent out : List String}
    (hgroup : resolve group = .ok sent) (hx : isOperand x = true)
    (hout : resolve (left ++ x :: right) = .ok out) :
    ∃ front back, out = front ++ x :: back ∧
      resolve (left ++ "(" :: (group ++ ")" :: right)) = .ok (front ++ sent ++ back) := by
  obtain ⟨_, after, last, hruns, hflush, rfl⟩ := resolveFrom_eq_ok_iff.1 hout
  obtain ⟨front, stack, _, hleft, hrest, rfl⟩ := runs_append_iff.1 hruns
  cases hrest with
  | @cons _ _ _ _ _ _ _ back hstep hright =>
    rw [step_operand hx] at hstep
    cases hstep
    obtain ⟨after', hright', hafter⟩ := hright.atop (.refl stack) barrier_nil
    have hgrouped := hleft.append ((runs_group hgroup).append hright')
    have regroup : "(" :: (group ++ [")"]) ++ right = "(" :: (group ++ ")" :: right) := by simp
    rw [regroup] at hgrouped
    refine ⟨front, back ++ last, by simp, ?_⟩
    exact resolveFrom_eq_ok_iff.2 ⟨_, after', last, hgrouped, hafter.flush hflush, by simp⟩

theorem not_mem_of_count_append {x : String} {front back : List String}
    (h : (front ++ x :: back).count x = 1) : x ∉ front ∧ x ∉ back := by
  rw [List.count_append, List.count_cons_self] at h
  exact ⟨List.count_eq_zero.1 (by omega), List.count_eq_zero.1 (by omega)⟩

/-- A text that resolves does so in parentheses, too, and to the same. In a text with an operand
that is there once, and that resolves, it can stand in parentheses in the place of the operand: then
its answer stands in the place of the operand in the answer, and nothing else is different. -/
theorem resolveText_group {group sent : String} (h : resolveText group = .ok sent) :
    (∀ wrapped : String,
      Text.words wrapped.toList = "(" :: (Text.words group.toList ++ [")"]) →
      resolveText wrapped = .ok sent) ∧
    ∀ (x : String) (left right : List String) (plain grouped out : String),
      isOperand x = true → x ∉ left → x ∉ right →
      Text.words plain.toList = left ++ x :: right →
      Text.words grouped.toList = left ++ "(" :: (Text.words group.toList ++ ")" :: right) →
      resolveText plain = .ok out →
      ∃ front back, x ∉ front ∧ x ∉ back ∧ Text.words out.toList = front ++ x :: back ∧
        out = spaced (front ++ x :: back) ∧
        resolveText grouped = .ok (spaced (front ++ Text.words sent.toList ++ back)) := by
  obtain ⟨inside, hinside, rfl⟩ := resolveText_eq_ok_iff.1 h
  constructor
  · intro wrapped hwrapped
    rw [resolveText, hwrapped, resolve_wrapped hinside]
    rfl
  · intro x left right plain grouped out hx hleft hright hplain hgrouped hout
    obtain ⟨tokens, htokens, rfl⟩ := resolveText_eq_ok_iff.1 hout
    have hwords := words_of_resolve htokens
    rw [hplain] at htokens
    obtain ⟨front, back, rfl, hresolve⟩ := resolve_group hinside hx htokens
    have once : (front ++ x :: back).count x = 1 := by
      rw [(resolve_perm htokens).count_eq, List.count_filter]
      · simp [List.count_eq_zero.2 hleft, List.count_eq_zero.2 hright]
      · simpa using not_isParenthesis_of_isOperand hx
    obtain ⟨hfront, hback⟩ := not_mem_of_count_append once
    refine ⟨front, back, hfront, hback, hwords, rfl, ?_⟩
    rw [resolveText, hgrouped, hresolve, words_of_resolve hinside]
    rfl

/-- An assignment, which binds less tightly than what stands around it, and no operand between two
operators behind it. -/
theorem resolveText_group_assignment :
    let group := "b = c"
    let wrapped := " ( b  = c )"
    let plain := "a * x / + d"
    let grouped := "a * ( b = c ) / + d"
    resolveText group = .ok "b c = " ∧
    Text.words wrapped.toList = "(" :: (Text.words group.toList ++ [")"]) ∧
    resolveText wrapped = .ok "b c = " ∧
    isOperand "x" = true ∧ Text.words plain.toList = ["a", "*"] ++ "x" :: ["/", "+", "d"] ∧
    Text.words grouped.toList =
      ["a", "*"] ++ "(" :: (Text.words group.toList ++ ")" :: ["/", "+", "d"]) ∧
    resolveText plain = .ok "a x * / d + " ∧
    ∃ front back, "x" ∉ front ∧ "x" ∉ back ∧
      Text.words "a x * / d + ".toList = front ++ "x" :: back ∧
      "a x * / d + " = spaced (front ++ "x" :: back) ∧
      resolveText grouped = .ok (spaced (front ++ Text.words "b c = ".toList ++ back)) := by
  intro group wrapped plain grouped
  have hgroup : resolveText group = .ok "b c = " := by decide +kernel
  have hwrapped : Text.words wrapped.toList = "(" :: (Text.words group.toList ++ [")"]) := by
    decide +kernel
  have hx : isOperand "x" = true := by decide
  have hplain : Text.words plain.toList = ["a", "*"] ++ "x" :: ["/", "+", "d"] := by decide +kernel
  have hgrouped : Text.words grouped.toList =
      ["a", "*"] ++ "(" :: (Text.words group.toList ++ ")" :: ["/", "+", "d"]) := by
    decide +kernel
  have hout : resolveText plain = .ok "a x * / d + " := by decide +kernel
  obtain ⟨hwrap, hreplace⟩ := resolveText_group hgroup
  exact ⟨hgroup, hwrapped, hwrap wrapped hwrapped, hx, hplain, hgrouped, hout,
    hreplace "x" _ _ plain grouped _ hx (by decide) (by decide) hplain hgrouped hout⟩

end Infix
end FrontEnd
