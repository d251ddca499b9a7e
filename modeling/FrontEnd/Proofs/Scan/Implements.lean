import FrontEnd.Proofs.Scan.Dispatch
import Mathlib.Data.List.TakeWhile

/-!
# FrontEnd.Proofs.Scan.Implements

The rules of the scanner do what the relations about the characters say.

* `Dispatch.run_iff` — a longest run is what `takeWhile` and `dropWhile` find.
* `Dispatch.Implements rule spec` — the rule answers exactly as the relation says, so it answers
  nothing where the relation has no answer.
* `Dispatch.word_implements`, `Dispatch.number_implements`, `Dispatch.operator_implements`, … —
  the rules that take as much as they can.
-/

namespace FrontEnd

namespace Dispatch

theorem isLayout_iff {c : Char} : isLayout c = true ↔ Layout c := by
  simp [isLayout, Layout, or_assoc]

theorem isAlpha_iff {c : Char} : c.isAlpha = true ↔ Letter c := by
  have unfolded : c.isAlpha =
      (decide ('A' ≤ c ∧ c ≤ 'Z') || (decide ('a' ≤ c) && decide (c ≤ 'z'))) := rfl
  rw [unfolded, Bool.or_eq_true, Bool.and_eq_true, decide_eq_true_eq, decide_eq_true_eq,
    decide_eq_true_eq]
  exact or_comm

theorem isDigit_iff {c : Char} : c.isDigit = true ↔ Digit c := by
  have unfolded : c.isDigit = (decide ('0' ≤ c) && decide (c ≤ '9')) := rfl
  rw [unfolded, Bool.and_eq_true, decide_eq_true_eq, decide_eq_true_eq]
  rfl

theorem isWordStart_iff {c : Char} : isWordStart c = true ↔ WordStart c := by
  simp [isWordStart, WordStart, isAlpha_iff, or_assoc]

theorem isWordPart_iff {c : Char} : isWordPart c = true ↔ WordPart c := by
  simp [isWordPart, WordPart, Char.isAlphanum, isAlpha_iff, isDigit_iff, or_assoc]

section Runs

variable {p : Char → Prop} {q : Char → Bool} {source text rest : List Char}

theorem run_iff (hq : ∀ c, q c = true ↔ p c) :
    Run p source text rest ↔ text = source.takeWhile q ∧ rest = source.dropWhile q := by
  constructor
  · intro h
    obtain ⟨rfl, inside, stops⟩ := h
    have hin : ∀ c ∈ text, q c = true := fun c hc => (hq c).2 (inside c hc)
    rw [List.takeWhile_append_of_pos hin, List.dropWhile_append_of_pos hin]
    cases rest with
    | nil => simp
    | cons c rest =>
      have : ¬q c = true := fun h => stops c (by simp) ((hq c).1 h)
      simp [this]
  · intro h
    obtain ⟨rfl, rfl⟩ := h
    refine ⟨List.takeWhile_append_dropWhile.symm, fun c hc => (hq c).1 (List.mem_takeWhile_imp hc),
      fun c hc h => ?_⟩
    have := List.head?_dropWhile_not q source
    rw [Option.mem_def.1 hc] at this
    simp [(hq c).2 h] at this

theorem run_takeWhile (hq : ∀ c, q c = true ↔ p c) :
    Run p source (source.takeWhile q) (source.dropWhile q) :=
  (run_iff hq).2 ⟨rfl, rfl⟩

end Runs

/-- The rule answers exactly what the relation says. -/
def Implements (rule : Rule) (spec : Spec) : Prop :=
  ∀ source answer, rule source = some answer ↔ spec source answer

theorem Implements.eq_none_iff {rule : Rule} {spec : Spec} (h : Implements rule spec)
    {source : List Char} : rule source = none ↔ ∀ answer, ¬spec source answer := by
  rw [Option.eq_none_iff_forall_ne_some]
  exact forall_congr' fun answer => not_congr (h source answer)

theorem layout_implements : Implements Rule.layout LayoutRun := by
  intro source answer
  constructor
  · intro h
    unfold Rule.layout at h
    split at h
    · cases h
    · rename_i text hne
      cases h
      exact .mk hne (run_takeWhile fun _ => isLayout_iff)
  · intro h
    obtain ⟨hne, run⟩ := h
    obtain ⟨rfl, rfl⟩ := (run_iff fun _ => isLayout_iff).1 run
    unfold Rule.layout
    split
    · contradiction
    · rfl

theorem word_implements : Implements Rule.word MaximalWord := by
  intro source answer
  constructor
  · intro h
    unfold Rule.word at h
    split at h
    · cases h
    · split at h
      · rename_i hc
        cases h
        exact .mk (isWordStart_iff.1 hc) (run_takeWhile fun _ => isWordPart_iff)
      · cases h
  · intro h
    obtain ⟨hc, run⟩ := h
    obtain ⟨rfl, rfl⟩ := (run_iff fun _ => isWordPart_iff).1 run
    simp only [Rule.word, if_pos (isWordStart_iff.2 hc)]

theorem punctuation_implements : Implements Rule.punctuation Mark := by
  intro source answer
  constructor
  · intro h
    unfold Rule.punctuation at h
    split at h
    · cases h
    · obtain ⟨p, hp, heq⟩ := Option.map_eq_some_iff.1 h
      cases heq
      cases Punctuation.ofChar?_eq_some_iff.1 hp
      exact .mk
  · intro h
    cases h
    simp only [Rule.punctuation, Punctuation.ofChar?_char, Option.map_some]

theorem number_implements : Implements Rule.number NumberLiteral := by
  have hd : ∀ c : Char, c.isDigit = true ↔ Digit c := fun _ => isDigit_iff
  intro source answer
  constructor
  · intro h
    have run : Run Digit source _ _ := run_takeWhile hd
    simp only [Rule.number] at h
    split at h
    · cases h
    · rename_i hne
      split at h
      · rename_i after hafter
        rw [hafter] at run
        have run' : Run Digit after _ _ := run_takeWhile hd
        split at h
        · rename_i hrest
          cases h
          rw [hrest] at run'
          simpa using NumberLiteral.malformed hne run run'
        · rename_i hrest
          cases h
          have hdot : '.' ∉ (after.dropWhile Char.isDigit).head? := fun h =>
            (List.head?_eq_some_iff.1 h).elim hrest
          exact .decimal hne run run' hdot
      · rename_i hrest
        cases h
        have hdot : '.' ∉ (source.dropWhile Char.isDigit).head? := fun h =>
          (List.head?_eq_some_iff.1 h).elim hrest
        exact .integer hne run hdot
  · intro h
    rcases h with ⟨hne, run, hdot⟩ | ⟨hne, run, run', hdot⟩ | ⟨hne, run, run'⟩
    · obtain ⟨rfl, rfl⟩ := (run_iff hd).1 run
      simp only [Rule.number, if_neg hne]
      split
      · rename_i heq
        simp [heq] at hdot
      · rfl
    · obtain ⟨rfl, hafter⟩ := (run_iff hd).1 run
      obtain ⟨rfl, rfl⟩ := (run_iff hd).1 run'
      simp only [Rule.number, if_neg hne, ← hafter]
      split
      · rename_i heq
        simp [heq] at hdot
      · rfl
    · obtain ⟨rfl, hafter⟩ := (run_iff hd).1 run
      obtain ⟨rfl, hrest⟩ := (run_iff hd).1 run'
      simp [Rule.number, hne, ← hafter, ← hrest]

section Operators

theorem scanned?_eq_some_iff {text : List Char} {op : Operator} :
    Operator.scanned? (String.ofList text) = some op ↔ Spells text op := by
  rw [Operator.scanned?, Option.filter_eq_some_iff, Operator.ofLexeme?_eq_some_iff, and_comm]
  simp only [Spells, ← String.toList_inj, String.toList_ofList]

/-- An operator of three characters is one of two characters and one more. -/
theorem Spells.of_three {a b c : Char} {op : Operator} (h : Spells [a, b, c] op) :
    ∃ two, Spells [a, b] two := by
  obtain ⟨_, hop⟩ := h
  cases op with
  | rShiftAssign => cases hop; exact ⟨.rShift, by decide, rfl⟩
  | lShiftAssign => cases hop; exact ⟨.lShift, by decide, rfl⟩
  | _ => cases hop

theorem not_spells_nil {op : Operator} : ¬Spells [] op := by
  intro h
  obtain ⟨_, hop⟩ := h
  cases op <;> cases hop

theorem operatorOf_eq_some_iff {n : Nat} {source : List Char} {answer : Answer} :
    Rule.operatorOf n source = some answer ↔
      ∃ op, Spells (source.take n) op ∧
        answer = .ok ⟨.operator op, source.take n, source.drop n⟩ := by
  simp only [Rule.operatorOf, Option.map_eq_some_iff, scanned?_eq_some_iff, @eq_comm _ _ answer]

theorem operatorOf_eq_none_iff {n : Nat} {source : List Char} :
    Rule.operatorOf n source = none ↔ ∀ op, ¬Spells (source.take n) op := by
  rw [Rule.operatorOf, Option.map_eq_none_iff, Option.eq_none_iff_forall_ne_some]
  exact forall_congr' fun _ => not_congr scanned?_eq_some_iff

theorem operator_implements : Implements Rule.operator LongestOperator := by
  intro source answer
  simp only [Rule.operator, Option.or_eq_some_iff, Option.or_eq_none_iff, operatorOf_eq_some_iff,
    operatorOf_eq_none_iff]
  constructor
  · intro h
    rcases h with (⟨op, hop, rfl⟩ | ⟨hthree, op, hop, rfl⟩) | ⟨⟨_, htwo⟩, op, hop, rfl⟩
    · match source with
      | [] => exact absurd hop not_spells_nil
      | [a] => exact .one hop (by simp)
      | [a, b] => exact .two hop (by simp)
      | a :: b :: c :: rest =>
        obtain ⟨two, htwo⟩ := hop.of_three
        exact .three htwo hop
    · match source with
      | [] => exact absurd hop not_spells_nil
      | [a] => exact absurd hop (hthree op)
      | [a, b] => exact absurd hop (hthree op)
      | a :: b :: c :: rest => exact .two hop (by simpa using hthree)
    · match source with
      | [] => exact absurd hop not_spells_nil
      | [a] => exact .one hop (by simp)
      | a :: b :: rest => exact .one hop (by simpa using htwo)
  · intro h
    rcases h with ⟨htwo, hop⟩ | ⟨hop, hthree⟩ | ⟨hop, htwo⟩
    · exact Or.inl (Or.inl ⟨_, hop, rfl⟩)
    · rename_i a b rest op
      match rest with
      | [] => exact Or.inl (Or.inl ⟨op, hop, rfl⟩)
      | c :: rest => exact Or.inl (Or.inr ⟨hthree c rfl, op, hop, rfl⟩)
    · rename_i a rest op
      match rest with
      | [] => exact Or.inl (Or.inl ⟨op, hop, rfl⟩)
      | [b] => exact Or.inr ⟨⟨htwo b rfl, htwo b rfl⟩, op, hop, rfl⟩
      | b :: c :: rest =>
        have hthree : ∀ op, ¬Spells [a, b, c] op := fun _ h =>
          h.of_three.elim (htwo b rfl)
        exact Or.inr ⟨⟨hthree, htwo b rfl⟩, op, hop, rfl⟩

end Operators

end Dispatch

end FrontEnd
