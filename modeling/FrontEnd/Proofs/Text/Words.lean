import FrontEnd.Text.Blank
import Mathlib.Data.List.TakeWhile

/-!
# FrontEnd.Proofs.Text.Words

The words of a text that is made of words and white space.

* `Text.Unbroken` — a word: not empty, and without white space.
* `Text.Spread words text` — the text has the words with white space between any two.
* `Text.words_spread` — then they are its words, whatever white space stands around it.
* `Text.unbroken_of_mem_words` — the words of any text are words.
-/

namespace FrontEnd.Text

structure Unbroken (word : String) : Prop where
  ne_empty : word ≠ ""
  not_blank : ∀ c ∈ word.toList, isBlank c = false

def Blank (gap : List Char) : Prop := ∀ c ∈ gap, isBlank c = true

instance (gap : List Char) : Decidable (Blank gap) :=
  decidable_of_iff (gap.all isBlank = true) List.all_eq_true

theorem unbroken_of_all {word : String} (hne : word ≠ "")
    (h : word.toList.all (!isBlank ·) = true) : Unbroken word :=
  ⟨hne, fun c hc => by simpa using List.all_eq_true.1 h c hc⟩

theorem isBlank_of_isAlpha {c : Char} (h : c.isAlpha = true) : isBlank c = false := by
  have unfolded : c.isAlpha =
      (decide (65 ≤ c.val ∧ c.val ≤ 90) || (decide (97 ≤ c.val) && decide (c.val ≤ 122))) := rfl
  have letter : (65 ≤ c.toNat ∧ c.toNat ≤ 90) ∨ (97 ≤ c.toNat ∧ c.toNat ≤ 122) := by
    rw [unfolded] at h
    simpa [UInt32.le_iff_toNat_le] using h
  simp only [isBlank, Bool.or_eq_false_iff, Bool.and_eq_false_iff, decide_eq_false_iff_not,
    beq_eq_false_iff_ne]
  omega

inductive Spread : List String → List Char → Prop
  | one {word : String} : Spread [word] word.toList
  | cons {word : String} {words : List String} {gap text : List Char} : gap ≠ [] → Blank gap →
    Spread words text → Spread (word :: words) (word.toList ++ (gap ++ text))

theorem words_nil : words [] = [] := by rw [words.eq_def]

theorem words_cons {c : Char} {rest : List Char} :
    words (c :: rest) =
      if isBlank c then words rest
      else
        String.ofList (c :: rest.takeWhile (!isBlank ·)) ::
          words (rest.dropWhile (!isBlank ·)) := by
  rw [words.eq_def]

theorem words_blank_append {gap rest : List Char} (h : Blank gap) :
    words (gap ++ rest) = words rest := by
  induction gap with
  | nil => rfl
  | cons c gap ih =>
    obtain ⟨hc, hgap⟩ := List.forall_mem_cons.1 h
    rw [List.cons_append, words_cons, if_pos hc, ih hgap]

theorem words_blank {gap : List Char} (h : Blank gap) : words gap = [] := by
  rw [← List.append_nil gap, words_blank_append h, words_nil]

/-- A word ends at white space or with the text. -/
theorem words_word_append {word : String} {rest : List Char} (h : Unbroken word)
    (hrest : ∀ c ∈ rest.head?, isBlank c = true) :
    words (word.toList ++ rest) = word :: words rest := by
  cases hw : word.toList with
  | nil => exact absurd (String.toList_eq_nil_iff.1 hw) h.ne_empty
  | cons c part =>
    have hnot := h.not_blank
    rw [hw] at hnot
    obtain ⟨hc, hpart⟩ := List.forall_mem_cons.1 hnot
    have inside : ∀ d ∈ part, (!isBlank d) = true := fun d hd => by simp [hpart d hd]
    have stops : rest.takeWhile (!isBlank ·) = [] ∧ rest.dropWhile (!isBlank ·) = rest := by
      cases rest with
      | nil => exact ⟨rfl, rfl⟩
      | cons d rest => simp [hrest d rfl]
    have not_blank : ¬isBlank c = true := by simp [hc]
    rw [List.cons_append, words_cons, if_neg not_blank, List.takeWhile_append_of_pos inside,
      List.dropWhile_append_of_pos inside, stops.1, stops.2, List.append_nil, ← hw,
      String.ofList_toList]

/-- Words have no white space in them. -/
theorem unbroken_of_mem_words {text : List Char} : ∀ word ∈ words text, Unbroken word := by
  induction text using words.induct with
  | case1 =>
    rw [words_nil]
    nofun
  | case2 c rest hc ih =>
    rw [words_cons, if_pos hc]
    exact ih
  | case3 c rest hc ih =>
    rw [words_cons, if_neg hc]
    refine List.forall_mem_cons.2 ⟨⟨by simp [← String.toList_inj], ?_⟩, ih⟩
    rw [String.toList_ofList]
    refine List.forall_mem_cons.2 ⟨Bool.eq_false_iff.2 hc, fun d hd => ?_⟩
    simpa using List.mem_takeWhile_imp hd

theorem words_spread {tokens : List String} {lead text trail : List Char}
    (h : Spread tokens text) (hwords : ∀ word ∈ tokens, Unbroken word) (hlead : Blank lead)
    (htrail : Blank trail) : words (lead ++ (text ++ trail)) = tokens := by
  rw [words_blank_append hlead]
  induction h with
  | @one word =>
    have hrest : ∀ c ∈ trail.head?, isBlank c = true := fun c hc =>
      htrail c (List.mem_of_mem_head? hc)
    rw [words_word_append (hwords word List.mem_cons_self) hrest, words_blank htrail]
  | @cons word tokens gap text hne hgap _ ih =>
    obtain ⟨hword, hlater⟩ := List.forall_mem_cons.1 hwords
    have hrest : ∀ c ∈ (gap ++ (text ++ trail)).head?, isBlank c = true := by
      obtain ⟨d, gap, rfl⟩ := List.exists_cons_of_ne_nil hne
      intro c h
      cases h
      exact hgap _ List.mem_cons_self
    rw [List.append_assoc, List.append_assoc, words_word_append hword hrest,
      words_blank_append hgap, ih hlater]

end FrontEnd.Text
