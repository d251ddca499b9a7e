import FrontEnd.Infix.Resolve
import Mathlib.Data.List.Induction
import Mathlib.Order.Bounds.Basic

/-!
# FrontEnd.Proofs.Infix.Parentheses

The resolver fails where the parentheses do not match, and only there.

* `Infix.Nested`, `Infix.Balanced` — no front part of the tokens closes more parentheses than it
  opens; and all are closed in the end.
* `Infix.Matches`, `Infix.Unclosed` — which parenthesis closes which one, and which one is never
  closed.
* `Infix.Awaits tokens places` — the tokens leave the parentheses at these places open, the last
  one first. Each token changes the places as it changes the stack (`Infix.step_awaits`).
* `Infix.Awaits.mem_iff` — and the places are those of the parentheses never closed.
* `Infix.resolveText_by_parentheses` — which error it is, and when there is none.
-/

namespace FrontEnd
namespace Infix

/-- More parentheses are closed than opened. -/
def Overcloses (tokens : List String) : Prop := tokens.count "(" < tokens.count ")"

instance (tokens : List String) : Decidable (Overcloses tokens) := Nat.decLt _ _

def Nested (tokens : List String) : Prop := ∀ n, ¬Overcloses (tokens.take n)

structure Balanced (tokens : List String) : Prop where
  nested : Nested tokens
  closed : tokens.count "(" = tokens.count ")"

/-- The parenthesis at `j` closes the one at `i`: what stands between them is balanced. -/
def Matches (tokens : List String) (i j : Nat) : Prop :=
  ∃ before inside after, tokens = before ++ "(" :: (inside ++ ")" :: after) ∧
    before.length = i ∧ before.length + inside.length + 1 = j ∧ Balanced inside

/-- The parenthesis at `i` is opened, and none closes it. -/
def Unclosed (tokens : List String) (i : Nat) : Prop :=
  tokens[i]? = some "(" ∧ ∀ j, ¬Matches tokens i j

section Nesting

variable {a b tokens : List String} {token : String}

theorem Nested.append (ha : Nested a) (hb : Nested b) : Nested (a ++ b) := by
  intro n
  have front := ha n
  have back := hb (n - a.length)
  simp only [Overcloses, List.take_append, List.count_append] at *
  omega

theorem Nested.of_append (h : Nested (a ++ b)) : Nested a := by
  intro n
  have front : (a ++ b).take a.length = a := List.take_left
  rw [← front, List.take_take]
  exact h _

/-- A parenthesis in front opens. -/
theorem Nested.opened (h : Nested a) : Nested ("(" :: a) := by
  intro n
  cases n with
  | zero => exact Nat.lt_irrefl 0
  | succ n =>
    have inside := h n
    simp only [Overcloses, List.take_succ_cons, List.count_cons] at *
    simp
    omega

/-- The last token comes in with the tokens as a whole. -/
theorem nested_append_singleton :
    Nested (a ++ [token]) ↔ Nested a ∧ ¬Overcloses (a ++ [token]) := by
  constructor
  · intro h
    have whole := h (a ++ [token]).length
    rw [List.take_length] at whole
    exact ⟨h.of_append, whole⟩
  · rintro ⟨front, whole⟩ n
    rcases Nat.lt_or_ge a.length n with hn | hn
    · rwa [List.take_of_length_le (by rwa [List.length_append])]
    · rw [List.take_append_of_le_length hn]
      exact front n

instance : Decidable (Nested tokens) :=
  decidable_of_iff (∀ n < tokens.length + 1, ¬Overcloses (tokens.take n)) <| by
    refine ⟨fun h n => ?_, fun h n _ => h n⟩
    rw [List.take_eq_take_min]
    exact h _ (by omega)

theorem Balanced.nil : Balanced [] := ⟨by decide, rfl⟩

theorem Balanced.append (ha : Balanced a) (hb : Balanced b) : Balanced (a ++ b) where
  nested := ha.nested.append hb.nested
  closed := by rw [List.count_append, List.count_append, ha.closed, hb.closed]

theorem Balanced.other (ho : token ≠ "(") (hc : token ≠ ")") : Balanced [token] where
  nested n := by cases n <;> simp [Overcloses, hc]
  closed := by simp [ho, hc]

theorem Balanced.group (h : Balanced a) : Balanced ("(" :: (a ++ [")"])) where
  nested n := by
    cases n with
    | zero => exact Nat.lt_irrefl 0
    | succ n =>
      have inside := h.nested n
      have closing : ([")"].take (n - a.length)).count ")" ≤ 1 :=
        Nat.le_trans (List.count_le_length) (by simp)
      simp only [Overcloses, List.take_succ_cons, List.take_append, List.count_cons,
        List.count_append] at *
      simp
      omega
  closed := by simp [h.closed]

/-- Where parentheses are closed that were not opened, there is a first one. -/
theorem exists_first_overclosing (h : ¬Nested tokens) :
    ∃ before after, tokens = before ++ ")" :: after ∧ Balanced before := by
  induction tokens using List.reverseRecOn with
  | nil => exact absurd Balanced.nil.nested h
  | append_singleton front token ih =>
    by_cases hfront : Nested front
    · have whole : Overcloses (front ++ [token]) := by
        by_contra hnot
        exact h (nested_append_singleton.2 ⟨hfront, hnot⟩)
      have all := hfront front.length
      rw [List.take_length] at all
      have closing : token = ")" := by
        by_contra hne
        simp [Overcloses, List.count_append, List.count_singleton, hne] at whole all
        omega
      subst closing
      simp [Overcloses, List.count_append] at whole all
      exact ⟨front, [], rfl, hfront, by omega⟩
    · obtain ⟨before, after, rfl, balanced⟩ := ih hfront
      exact ⟨before, after ++ [token], by simp, balanced⟩

/-- None closes a parenthesis exactly if nothing behind it closes more than is opened there. -/
theorem unclosed_iff {i : Nat} : Unclosed tokens i ↔
    ∃ before after, tokens = before ++ "(" :: after ∧ before.length = i ∧ Nested after := by
  constructor
  · rintro ⟨hopened, hnone⟩
    obtain ⟨hlt, hget⟩ := List.getElem?_eq_some_iff.1 hopened
    have split : tokens = tokens.take i ++ "(" :: tokens.drop (i + 1) := by
      rw [← hget, ← List.drop_eq_getElem_cons hlt, List.take_append_drop]
    refine ⟨_, _, split, List.length_take_of_le (Nat.le_of_lt hlt), ?_⟩
    by_contra hnot
    obtain ⟨inside, after, hdrop, balanced⟩ := exists_first_overclosing hnot
    rw [hdrop] at split
    exact hnone _
      ⟨_, inside, after, split, List.length_take_of_le (Nat.le_of_lt hlt), rfl, balanced⟩
  · rintro ⟨before, after, rfl, rfl, nested⟩
    refine ⟨by simp, fun j => ?_⟩
    rintro ⟨before', inside, after', htokens, hlength, -, balanced⟩
    obtain ⟨-, hafter⟩ := List.append_inj htokens hlength.symm
    have closing := nested (inside.length + 1)
    rw [(List.cons.inj hafter).2, List.take_append,
      List.take_of_length_le (Nat.le_succ inside.length)] at closing
    simp [Overcloses, List.count_append, balanced.closed] at closing

theorem Balanced.not_unclosed (h : Balanced tokens) (i : Nat) : ¬Unclosed tokens i := by
  intro hu
  obtain ⟨before, after, rfl, -, nested⟩ := unclosed_iff.1 hu
  have front := h.nested.of_append before.length
  have back := nested after.length
  have whole := h.closed
  rw [List.take_length] at front back
  simp [Overcloses, List.count_append] at front back whole
  omega

end Nesting

/-- The tokens leave parentheses open at these places, the last one first. Between them, and behind
the last one, everything is balanced. -/
inductive Awaits : List String → List Nat → Prop
  | balanced {tokens : List String} : Balanced tokens → Awaits tokens []
  | opened {before inside : List String} {places : List Nat} : Awaits before places →
    Balanced inside → Awaits (before ++ "(" :: inside) (before.length :: places)

namespace Awaits

variable {tokens : List String} {places : List Nat} {token : String} {i : Nat}

theorem append {later : List String} (h : Awaits tokens places) (hl : Balanced later) :
    Awaits (tokens ++ later) places := by
  cases h with
  | balanced h => exact .balanced (h.append hl)
  | opened h inside =>
    rw [List.append_assoc]
    exact .opened h (inside.append hl)

theorem other (h : Awaits tokens places) (ho : token ≠ "(") (hc : token ≠ ")") :
    Awaits (tokens ++ [token]) places := h.append (.other ho hc)

theorem group (h : Awaits tokens places) : Awaits (tokens ++ ["("]) (tokens.length :: places) :=
  .opened h .nil

theorem close (h : Awaits tokens (i :: places)) : Awaits (tokens ++ [")"]) places := by
  cases h with
  | opened h inside =>
    rw [List.append_assoc]
    exact h.append inside.group

theorem balanced_of_nil (h : Awaits tokens []) : Balanced tokens := by
  cases h with
  | balanced h => exact h

theorem nested (h : Awaits tokens places) : Nested tokens := by
  induction h with
  | balanced h => exact h.nested
  | opened _ inside ih => exact ih.append inside.nested.opened

theorem count (h : Awaits tokens places) :
    tokens.count "(" = tokens.count ")" + places.length := by
  induction h with
  | balanced h => exact h.closed
  | opened _ inside ih =>
    simp [List.count_append, ih, inside.closed]
    omega

theorem lt_length (h : Awaits tokens places) : ∀ place ∈ places, place < tokens.length := by
  induction h with
  | balanced => nofun
  | opened _ _ ih =>
    refine List.forall_mem_cons.2 ⟨by simp, fun place hplace => ?_⟩
    have := ih place hplace
    simp
    omega

theorem descending (h : Awaits tokens places) : places.Pairwise (· > ·) := by
  induction h with
  | balanced => exact .nil
  | opened h _ ih => exact .cons h.lt_length ih

/-- The places are exactly those of the parentheses that are never closed. -/
theorem mem_iff (h : Awaits tokens places) : i ∈ places ↔ Unclosed tokens i := by
  induction h with
  | balanced h => exact ⟨nofun, fun hu => absurd hu (h.not_unclosed i)⟩
  | @opened front inside places _ balanced ih =>
    rw [List.mem_cons, ih, unclosed_iff, unclosed_iff]
    constructor
    · rintro (rfl | ⟨before, after, rfl, rfl, nested⟩)
      · exact ⟨front, inside, rfl, rfl, balanced.nested⟩
      · exact ⟨before, after ++ "(" :: inside, by simp, rfl,
          nested.append balanced.nested.opened⟩
    · rintro ⟨before, after, htokens, rfl, nested⟩
      -- it is the last one awaited, or it stands behind that one, or in front of it
      rcases List.append_eq_append_iff.1 htokens with ⟨c, rfl, hc⟩ | ⟨c, rfl, hc⟩
      · cases c with
        | nil => exact .inl (by simp)
        | cons x c =>
          obtain ⟨-, rfl⟩ := List.cons.inj hc
          exact absurd (unclosed_iff.2 ⟨c, after, rfl, rfl, nested⟩) (balanced.not_unclosed _)
      · cases c with
        | nil => exact .inl (by simp)
        | cons x c =>
          obtain ⟨rfl, rfl⟩ := List.cons.inj hc
          exact .inr ⟨before, c, rfl, rfl, nested.of_append⟩

end Awaits

def Pending.place? : Pending → Option Nat
  | .operator _ _ => none
  | .opened index => some index

/-- The places of the open parentheses on the stack. -/
def places (stack : Stack) : List Nat := stack.filterMap Pending.place?

section Stacks

variable {stack : Stack} {lexeme : String} {operator : InfixOperator} {index : Nat}

@[simp] theorem places_operator :
    places (.operator lexeme operator :: stack) = places stack := rfl

@[simp] theorem places_opened : places (.opened index :: stack) = index :: places stack := rfl

/-- An operator takes no parenthesis off the stack. -/
theorem places_popTighter {strength : Nat} :
    places (popTighter strength stack).2 = places stack := by
  induction stack with
  | nil => rfl
  | cons pending stack ih =>
    cases pending with
    | operator lexeme top =>
      unfold popTighter
      split
      · rfl
      · exact ih
    | opened index => rfl

theorem popGroup?_of_none (h : places stack = []) : popGroup? stack = none := by
  induction stack with
  | nil => rfl
  | cons pending stack ih =>
    cases pending with
    | operator lexeme operator => rw [popGroup?, ih h]; rfl
    | opened index => cases h

/-- A closing parenthesis takes the last open one. -/
theorem popGroup?_of_place {later : List Nat} (h : places stack = index :: later) :
    ∃ emitted below, popGroup? stack = some (emitted, below) ∧ places below = later := by
  induction stack with
  | nil => cases h
  | cons pending stack ih =>
    cases pending with
    | operator lexeme operator =>
      obtain ⟨emitted, below, hpop, hbelow⟩ := ih h
      exact ⟨lexeme :: emitted, below, by rw [popGroup?, hpop]; rfl, hbelow⟩
    | opened opening =>
      rw [places_opened] at h
      exact ⟨[], stack, rfl, (List.cons.inj h).2⟩

theorem flush_of_none (h : places stack = []) : ∃ output, flush stack = .ok output := by
  induction stack with
  | nil => exact ⟨[], rfl⟩
  | cons pending stack ih =>
    cases pending with
    | operator lexeme operator =>
      obtain ⟨output, hflush⟩ := ih h
      exact ⟨lexeme :: output, by rw [flush, hflush]; rfl⟩
    | opened index => cases h

theorem flush_of_place {later : List Nat} (h : places stack = index :: later) :
    flush stack = .error (.unclosedOpen index) := by
  induction stack with
  | nil => cases h
  | cons pending stack ih =>
    cases pending with
    | operator lexeme operator => rw [flush, ih h]; rfl
    | opened opening =>
      rw [places_opened] at h
      rw [flush, (List.cons.inj h).1]

end Stacks

/-- Where the tokens read leave these parentheses open, one more token leaves those open that the
stack then holds; only a closing one that none awaits is an error. -/
theorem step_awaits {read : List String} {stack : Stack} (token : String)
    (h : Awaits read (places stack)) :
    (∃ emitted after, step read.length token stack = .ok (emitted, after) ∧
      Awaits (read ++ [token]) (places after)) ∨
    token = ")" ∧ places stack = [] ∧
      step read.length token stack = .error (.unmatchedClose read.length) := by
  unfold step
  cases hlookup : InfixOperator.ofLexeme? token with
  | some operator =>
    have no_parenthesis {parenthesis : String}
        (hnone : InfixOperator.ofLexeme? parenthesis = none) : token ≠ parenthesis := by
      rintro rfl
      cases hlookup.symm.trans hnone
    have ho : token ≠ "(" := no_parenthesis (by decide)
    have hc : token ≠ ")" := no_parenthesis (by decide)
    refine .inl ⟨_, _, rfl, ?_⟩
    rw [places_operator, places_popTighter]
    exact h.other ho hc
  | none =>
    by_cases ho : token = "("
    · rw [if_pos ho, ho]
      exact .inl ⟨_, _, rfl, h.group⟩
    · rw [if_neg ho]
      by_cases hc : token = ")"
      · rw [if_pos hc]
        cases hplaces : places stack with
        | nil =>
          rw [popGroup?_of_none hplaces]
          exact .inr ⟨hc, rfl, rfl⟩
        | cons index later =>
          obtain ⟨emitted, below, hpop, hbelow⟩ := popGroup?_of_place hplaces
          rw [hplaces] at h
          rw [hpop, hc]
          exact .inl ⟨emitted, below, rfl, hbelow ▸ h.close⟩
      · rw [if_neg hc]
        exact .inl ⟨_, _, rfl, h.other ho hc⟩

/-- What the parentheses of the tokens make of the answer. -/
inductive Verdict (tokens : List String) : Except ResolveError (List String) → Prop
  | unmatched {before after : List String} : tokens = before ++ ")" :: after →
    Awaits before [] → Verdict tokens (.error (.unmatchedClose before.length))
  | unclosed {place : Nat} {outer : List Nat} : Awaits tokens (place :: outer) →
    Verdict tokens (.error (.unclosedOpen place))
  | closed {output : List String} : Awaits tokens [] → Verdict tokens (.ok output)

theorem Verdict.map {tokens : List String} {answer : Except ResolveError (List String)}
    {f : List String → List String} (h : Verdict tokens answer) :
    Verdict tokens (answer.map f) := by
  cases h with
  | unmatched htokens h => exact .unmatched htokens h
  | unclosed h => exact .unclosed h
  | closed h => exact .closed h

theorem verdict_resolveFrom {read tokens : List String} {stack : Stack}
    (h : Awaits read (places stack)) :
    Verdict (read ++ tokens) (resolveFrom read.length stack tokens) := by
  induction tokens generalizing read stack with
  | nil =>
    rw [resolveFrom, List.append_nil]
    cases hplaces : places stack with
    | nil =>
      obtain ⟨output, hflush⟩ := flush_of_none hplaces
      rw [hflush]
      exact .closed (hplaces ▸ h)
    | cons place outer =>
      rw [flush_of_place hplaces]
      exact .unclosed (hplaces ▸ h)
  | cons token tokens ih =>
    rw [resolveFrom]
    rcases step_awaits token h with ⟨emitted, after, hstep, hafter⟩ | ⟨rfl, hplaces, hstep⟩
    · have later := ih hafter
      rw [List.append_assoc, List.length_append] at later
      rw [hstep]
      exact later.map
    · rw [hstep]
      exact .unmatched rfl (hplaces ▸ h)

/-- Behind a balanced part a closing parenthesis is the first that is one too many. -/
theorem isLeast_overcloses {before after : List String} (h : Balanced before) :
    IsLeast {i | Overcloses ((before ++ ")" :: after).take (i + 1))} before.length := by
  constructor
  · show Overcloses ((before ++ ")" :: after).take (before.length + 1))
    rw [List.take_length_add_append, List.take_succ_cons, List.take_zero]
    simp [Overcloses, List.count_append, h.closed]
  · intro i (hi : Overcloses ((before ++ ")" :: after).take (i + 1)))
    by_contra hlt
    rw [List.take_append_of_le_length (by omega)] at hi
    exact h.nested _ hi

theorem Awaits.isGreatest {tokens : List String} {place : Nat} {outer : List Nat}
    (h : Awaits tokens (place :: outer)) : IsGreatest {i | Unclosed tokens i} place := by
  refine ⟨h.mem_iff.1 List.mem_cons_self, fun i hi => ?_⟩
  rcases List.mem_cons.1 (h.mem_iff.2 hi) with rfl | hmem
  · exact Nat.le_refl _
  · exact Nat.le_of_lt (List.rel_of_pairwise_cons h.descending hmem)

/-- A text resolves exactly if its parentheses match, whatever stands between them. If some front
part of its words closes more than it opens, the error names the last word of the shortest such
part, whatever follows; else, if more are opened than closed, the error names the last of those that
are never closed. -/
theorem resolveText_by_parentheses (text : String) :
    let tokens := Text.words text.toList
    (∀ n, Overcloses (tokens.take n) →
      ∃ i, IsLeast {i | Overcloses (tokens.take (i + 1))} i ∧
        resolveText text = .error (.unmatchedClose i)) ∧
    (Nested tokens → tokens.count ")" < tokens.count "(" →
      ∃ i, IsGreatest {i | Unclosed tokens i} i ∧
        resolveText text = .error (.unclosedOpen i)) ∧
    (Nested tokens → tokens.count "(" ≤ tokens.count ")" →
      ∃ output, resolveText text = .ok output) := by
  intro tokens
  have verdict : Verdict tokens (resolve tokens) :=
    @verdict_resolveFrom [] tokens [] (.balanced .nil)
  have resolved : resolveText text = (resolve tokens).map spaced := rfl
  rw [resolved]
  generalize resolve tokens = answer at verdict
  cases verdict with
  | @unmatched before after htokens h =>
    have least : IsLeast {i | Overcloses ((before ++ ")" :: after).take (i + 1))} _ :=
      isLeast_overcloses h.balanced_of_nil
    rw [← htokens] at least
    have unnested : ¬Nested tokens := fun nested => nested _ least.1
    exact ⟨fun _ _ => ⟨_, least, rfl⟩, fun nested => absurd nested unnested,
      fun nested => absurd nested unnested⟩
  | unclosed h =>
    refine ⟨fun n hn => absurd hn (h.nested n), fun _ _ => ⟨_, h.isGreatest, rfl⟩, fun _ hle => ?_⟩
    have count := h.count
    rw [List.length_cons] at count
    omega
  | closed h =>
    refine ⟨fun n hn => absurd hn (h.nested n), fun _ hlt => ?_, fun _ _ => ⟨_, rfl⟩⟩
    have count := h.count
    rw [List.length_nil] at count
    omega

/-- The second of two closing parentheses is one too many, though one is left open behind it; of two
that are left open the last one is named; and operators without operands are no error. -/
theorem resolveText_by_parentheses_misplaced :
    let overclosing := ["a", "(", "*", "b", ")", ")", "("]
    let unclosing := ["(", "(", "a", ")", "(", "+"]
    let matching := ["*", "(", "+", ")", "a", "b"]
    (Overcloses (overclosing.take 6) ∧ IsLeast {i | Overcloses (overclosing.take (i + 1))} 5 ∧
      resolveText "a ( * b ) ) (" = .error (.unmatchedClose 5)) ∧
    (Nested unclosing ∧ unclosing.count ")" < unclosing.count "(" ∧
      IsGreatest {i | Unclosed unclosing i} 4 ∧
      resolveText "( ( a ) ( +" = .error (.unclosedOpen 4)) ∧
    Nested matching ∧ matching.count "(" ≤ matching.count ")" ∧
      ∃ output, resolveText "* ( + ) a b" = .ok output := by
  intro overclosing unclosing matching
  have overclosing_words : Text.words "a ( * b ) ) (".toList = overclosing := by decide +kernel
  have unclosing_words : Text.words "( ( a ) ( +".toList = unclosing := by decide +kernel
  have matching_words : Text.words "* ( + ) a b".toList = matching := by decide +kernel
  refine ⟨⟨by decide, ?_⟩, ⟨by decide, by decide, ?_⟩, by decide, by decide, ?_⟩
  · obtain ⟨i, least, failed⟩ :=
      (resolveText_by_parentheses "a ( * b ) ) (").1 6 (by rw [overclosing_words]; decide)
    have answer : resolveText "a ( * b ) ) (" = .error (.unmatchedClose 5) := by decide +kernel
    obtain rfl : i = 5 := by
      cases failed.symm.trans answer
      rfl
    exact ⟨overclosing_words ▸ least, failed⟩
  · obtain ⟨i, greatest, failed⟩ := (resolveText_by_parentheses "( ( a ) ( +").2.1
      (by rw [unclosing_words]; decide) (by rw [unclosing_words]; decide)
    have answer : resolveText "( ( a ) ( +" = .error (.unclosedOpen 4) := by decide +kernel
    obtain rfl : i = 4 := by
      cases failed.symm.trans answer
      rfl
    exact ⟨unclosing_words ▸ greatest, failed⟩
  · exact (resolveText_by_parentheses "* ( + ) a b").2.2
      (by rw [matching_words]; decide) (by rw [matching_words]; decide)

end Infix
end FrontEnd
