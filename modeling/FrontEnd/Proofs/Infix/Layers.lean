import FrontEnd.Proofs.Infix.Account
import Mathlib.Data.List.Perm.Subperm

/-!
# FrontEnd.Proofs.Infix.Layers

The shape of the resolver's stack: open parentheses part it into layers, and in a layer an operator
binds the tighter the higher it lies.

* `Infix.layers` — the operators on a stack, parted by the open parentheses.
* `Infix.Ordered` — no operator lies on one that binds as tightly or tighter. The stack of every
  account is so (`Infix.Account.ordered`).
* `Infix.Ordered.ascending`, `Infix.Ordered.length_operators_le` — so no strength is twice in a
  layer, and no layer holds more operators than there are strengths.
* `Infix.exists_runs_iff_nested` — the resolver goes on until a parenthesis is closed that was not
  opened.
* `Infix.history_layered` — what this makes of the stack after every token.
-/

namespace FrontEnd

/-- The strengths that operators have. -/
def InfixOperator.strengths : List Nat := [2, 3, 4, 5, 6, 7, 8, 9, 10, 11, 12, 14]

theorem InfixOperator.strength_mem_strengths (operator : InfixOperator) :
    operator.strength ∈ strengths := by
  cases operator <;> decide

namespace Infix

def Pending.operator? : Pending → Option InfixOperator
  | .operator _ op => some op
  | .opened _ => none

/-- The operators on the stack, the last first. -/
def operators (stack : Stack) : List InfixOperator := stack.filterMap Pending.operator?

/-- The operators on the stack, parted by its open parentheses. The last come first, and a layer is
empty where nothing lies between two parentheses, on the last one or below the first. -/
def layers : Stack → List (List InfixOperator)
  | [] => [[]]
  | .operator _ operator :: rest => (layers rest).modifyHead (operator :: ·)
  | .opened _ :: rest => [] :: layers rest

/-- An operator lies on the bottom, on a parenthesis, or on an operator that binds less tightly. -/
inductive Ordered : Stack → Prop
  | nil : Ordered []
  | operator {lexeme : String} {operator : InfixOperator} {stack : Stack} :
    Above operator.strength stack → Ordered stack → Ordered (.operator lexeme operator :: stack)
  | opened {index : Nat} {stack : Stack} : Ordered stack → Ordered (.opened index :: stack)

section Stacks

variable {stack upper lower : Stack}

theorem layers_operator {lexeme : String} {operator : InfixOperator} {own : List InfixOperator}
    {outer : List (List InfixOperator)} (h : layers stack = own :: outer) :
    layers (.operator lexeme operator :: stack) = (operator :: own) :: outer := by
  rw [layers, h, List.modifyHead_cons]

theorem exists_layers (stack : Stack) : ∃ own outer, layers stack = own :: outer := by
  induction stack with
  | nil => exact ⟨[], [], rfl⟩
  | cons pending stack ih =>
    cases pending with
    | operator lexeme operator =>
      obtain ⟨own, outer, hlayers⟩ := ih
      exact ⟨operator :: own, outer, layers_operator hlayers⟩
    | opened index => exact ⟨[], layers stack, rfl⟩

/-- One layer below all parentheses, and one on each. -/
theorem length_layers : (layers stack).length = (places stack).length + 1 := by
  induction stack with
  | nil => rfl
  | cons pending stack ih =>
    cases pending with
    | operator lexeme operator => rw [layers, List.length_modifyHead, ih, places_operator]
    | opened index => rw [layers, List.length_cons, ih, places_opened, List.length_cons]

/-- Every operator lies in a layer. -/
theorem flatten_layers : (layers stack).flatten = operators stack := by
  induction stack with
  | nil => rfl
  | cons pending stack ih =>
    cases pending with
    | operator lexeme operator =>
      obtain ⟨own, outer, hlayers⟩ := exists_layers stack
      rw [hlayers] at ih
      rw [layers_operator hlayers]
      exact congrArg (operator :: ·) ih
    | opened index => exact ih

namespace Ordered

theorem of_append (h : Ordered (upper ++ lower)) : Ordered lower := by
  induction upper with
  | nil => exact h
  | cons pending upper ih =>
    cases h with
    | operator _ h => exact ih h
    | opened h => exact ih h

/-- What an operator can be put on binds less tightly than it down to the next parenthesis. -/
theorem lt_of_mem_own {strength : Nat} {own : List InfixOperator}
    {outer : List (List InfixOperator)} (h : Ordered stack) (above : Above strength stack)
    (hlayers : layers stack = own :: outer) : ∀ operator ∈ own, strength < operator.strength := by
  induction h generalizing strength own with
  | nil =>
    cases hlayers
    exact List.forall_mem_nil _
  | @operator lexeme top stack loose _ ih =>
    obtain ⟨below, outer', hbelow⟩ := exists_layers stack
    rw [layers_operator hbelow] at hlayers
    cases hlayers
    have first : strength < top.strength := above
    refine List.forall_mem_cons.2 ⟨first, fun operator hoperator => ?_⟩
    exact Nat.lt_trans first (ih loose hbelow operator hoperator)
  | opened =>
    cases hlayers
    exact List.forall_mem_nil _

theorem ascending (h : Ordered stack) :
    ∀ layer ∈ layers stack, layer.Pairwise (·.strength < ·.strength) := by
  induction h with
  | nil => exact List.forall_mem_singleton.2 .nil
  | @operator lexeme operator stack above h ih =>
    obtain ⟨own, outer, hlayers⟩ := exists_layers stack
    rw [hlayers] at ih
    obtain ⟨hown, houter⟩ := List.forall_mem_cons.1 ih
    rw [layers_operator hlayers]
    exact List.forall_mem_cons.2 ⟨hown.cons (h.lt_of_mem_own above hlayers), houter⟩
  | opened _ ih => exact List.forall_mem_cons.2 ⟨.nil, ih⟩

end Ordered

/-- Operators of different strengths are not more than the strengths. -/
theorem length_le_of_ascending {layer : List InfixOperator}
    (h : layer.Pairwise (·.strength < ·.strength)) : layer.length ≤ 12 := by
  have different : (layer.map InfixOperator.strength).Nodup :=
    List.pairwise_map.2 (h.imp Nat.ne_of_lt)
  have known : layer.map InfixOperator.strength ⊆ InfixOperator.strengths :=
    List.forall_mem_map.2 fun operator _ => operator.strength_mem_strengths
  have fewer := (different.subperm known).length_le
  rwa [List.length_map] at fewer

theorem length_flatten_le {α : Type} {parts : List (List α)} {most : Nat}
    (h : ∀ part ∈ parts, part.length ≤ most) : parts.flatten.length ≤ most * parts.length := by
  induction parts with
  | nil => exact Nat.zero_le _
  | cons part parts ih =>
    obtain ⟨hpart, hparts⟩ := List.forall_mem_cons.1 h
    rw [List.flatten_cons, List.length_append, List.length_cons, Nat.mul_succ, Nat.add_comm]
    exact Nat.add_le_add (ih hparts) hpart

theorem Ordered.length_operators_le (h : Ordered stack) :
    (operators stack).length ≤ 12 * ((places stack).length + 1) := by
  rw [← flatten_layers, ← length_layers]
  exact length_flatten_le fun layer hlayer => length_le_of_ascending (h.ascending layer hlayer)

end Stacks

/-- An operator is put on what it could not take off. -/
theorem Account.ordered {read : List String} {sent waiting : List Occurrence}
    (h : Account read sent waiting) : Ordered (stackOf waiting) := by
  induction h with
  | start => exact .nil
  | operand _ _ ih => exact ih
  | operator _ hoperator parts ih =>
    rw [stackOf_append] at ih
    rw [stackOf, List.map_cons, Occurrence.pending, hoperator]
    exact .operator parts.loose ih.of_append
  | opened _ ih => exact ih.opened
  | closed _ _ ih =>
    rw [← List.singleton_append, ← List.append_assoc, stackOf_append] at ih
    exact ih.of_append

section History

variable {n : Nat} {stack : Stack} {read tokens : List String}

/-- The resolver gets past tokens exactly if they close no parenthesis that was not opened. -/
theorem exists_runs_iff_nested (h : Awaits read (places stack)) :
    (∃ after out, Runs read.length stack tokens out after) ↔ Nested (read ++ tokens) := by
  induction tokens generalizing read stack with
  | nil =>
    rw [List.append_nil]
    exact iff_of_true ⟨stack, [], .nil⟩ h.nested
  | cons token tokens ih =>
    rcases step_awaits token h with ⟨emitted, between, hstep, hbetween⟩ | ⟨rfl, hplaces, hstep⟩
    · have later := ih hbetween
      rw [List.append_assoc, List.length_append] at later
      exact (exists_congr fun after => exists_runs_cons_iff hstep).trans later
    · rw [hplaces] at h
      exact iff_of_false (not_exists.2 fun _ => not_exists_runs_of_error hstep)
        fun nested => nested _ (isLeast_overcloses h.balanced_of_nil).1

/-- The history has an entry for every token before the first closing parenthesis too many. -/
theorem isSome_getElem?_history_iff :
    (history tokens)[n]?.isSome ↔ n < tokens.length ∧ Nested (tokens.take (n + 1)) := by
  have runs : (∃ after out, Runs 0 [] (tokens.take (n + 1)) out after) ↔
      Nested (tokens.take (n + 1)) :=
    @exists_runs_iff_nested [] [] (tokens.take (n + 1)) (.balanced .nil)
  rw [← runs, Option.isSome_iff_exists]
  constructor
  · rintro ⟨⟨token, after⟩, hentry⟩
    obtain ⟨htoken, hruns⟩ := getElem?_historyFrom_eq_some_iff.1 hentry
    exact ⟨(List.getElem?_eq_some_iff.1 htoken).1, after, hruns⟩
  · rintro ⟨hn, after, hruns⟩
    exact ⟨(tokens[n], after),
      getElem?_historyFrom_eq_some_iff.2 ⟨List.getElem?_eq_getElem hn, hruns⟩⟩

end History

/-- The resolver's stack after the token at `n`, which the history has exactly if no closing
parenthesis up to there is one too many. The open parentheses part it into layers, in each of which
the strengths strictly decrease from the bottom up. The places of these parentheses strictly
increase from the bottom up, and they are those of the tokens read that are never closed. So the
stack holds at most twelve operators for each layer, of which there is one more than open
parentheses, and the same holds of what is left of it when some are taken off. -/
theorem history_layered (text : String) (n : Nat) :
    let tokens := Text.words text.toList
    let read := tokens.take (n + 1)
    ((history tokens)[n]?.isSome ↔ n < tokens.length ∧ Nested read) ∧
    ∀ token stack, (history tokens)[n]? = some (token, stack) →
      tokens[n]? = some token ∧
      (∀ layer ∈ layers stack, layer.Pairwise (·.strength < ·.strength)) ∧
      (places stack).Pairwise (· > ·) ∧
      (∀ i, i ∈ places stack ↔ Unclosed read i) ∧
      ∀ held, held <:+ stack → (operators held).length ≤ 12 * ((places held).length + 1) := by
  intro tokens read
  refine ⟨isSome_getElem?_history_iff, fun token stack hstack => ?_⟩
  obtain ⟨htoken, out, hruns⟩ := getElem?_historyFrom_eq_some_iff.1 hstack
  obtain ⟨_, _, h, -, rfl⟩ := Account.start.exists_runs hruns
  have ordered := h.ordered
  refine ⟨htoken, ordered.ascending, h.awaits.descending, fun i => h.awaits.mem_iff, ?_⟩
  rintro held ⟨taken, htaken⟩
  rw [← htaken] at ordered
  exact ordered.of_append.length_operators_le

/-- Operators of all strengths, the loosest first, all stay, and once more on a parenthesis: without
any operand, the stack is as full as it can be. -/
theorem history_layered_full :
    let text := "= || && | ^ & == < > + * ! ( = || && | ^ & == < > + * ! )"
    let tokens := Text.words text.toList
    let own : Stack := [.operator "!" .bang, .operator "*" .multiply, .operator "+" .add,
      .operator ">" .gt, .operator "<" .lt, .operator "==" .equals, .operator "&" .bitAnd,
      .operator "^" .bitXor, .operator "|" .bitOr, .operator "&&" .and, .operator "||" .or,
      .operator "=" .assign]
    let stack := own ++ .opened 12 :: own
    (history tokens)[24]? = some ("!", stack) ∧ layers stack = [operators own, operators own] ∧
      (operators own).Pairwise (·.strength < ·.strength) ∧
      places stack = [12] ∧ Unclosed (tokens.take 25) 12 ∧
      (operators stack).length = 24 ∧ 24 ≤ 12 * ((places stack).length + 1) := by
  intro text tokens own stack
  have entry : (history tokens)[24]? = some ("!", stack) := by decide +kernel
  have parts : layers stack = [operators own, operators own] := by decide
  have count : (operators stack).length = 24 := by decide
  obtain ⟨-, ascending, -, unclosed, full⟩ := (history_layered text 24).2 "!" stack entry
  refine ⟨entry, parts, ascending _ ?_, rfl, (unclosed 12).1 (by decide), count, ?_⟩
  · rw [parts]
    exact List.mem_cons_self
  · rw [← count]
    exact full stack (List.suffix_refl stack)

end Infix
end FrontEnd
