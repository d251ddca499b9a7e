import FrontEnd.Proofs.Scan.FirstMatch

/-!
# FrontEnd.Proofs.Scan.Leading

The first character settles which rule has its turn, but for the slash, which begins comments
and operators, and the percent sign, which is an operator and begins words.

* `Dispatch.Leads lead spec` — what the rule takes begins with a character of the class.
* `Dispatch.firstMatch_of_blockComment`, …, `Dispatch.firstMatch_of_longestOperator` — so what a
  rule says is the first match, whatever the rules before it.
* `Dispatch.FirstMatch.carry` — and a rule that has its turn on one source has it on another that
  begins like it.
-/

namespace FrontEnd
namespace Dispatch

instance : DecidablePred Layout := fun _ => inferInstanceAs (Decidable (_ ∨ _))

instance : DecidablePred Letter := fun _ => inferInstanceAs (Decidable (_ ∨ _))

instance : DecidablePred Digit := fun _ => inferInstanceAs (Decidable (_ ∧ _))

instance : DecidablePred WordStart := fun _ => inferInstanceAs (Decidable (_ ∨ _))

instance : DecidablePred WordPart := fun _ => inferInstanceAs (Decidable (_ ∨ _))

/-- What the rule takes begins with a character of the class. -/
def Leads (lead : Char → Prop) (spec : Spec) : Prop :=
  ∀ {c : Char} {rest : List Char} {answer : Answer}, spec (c :: rest) answer → lead c

theorem Run.head {p : Char → Prop} {c : Char} {source text rest : List Char} (hne : text ≠ [])
    (run : Run p (c :: source) text rest) : p c := by
  cases text with
  | nil => contradiction
  | cons d text =>
    cases run.source_eq
    exact run.inside c List.mem_cons_self

theorem lineComment_leads : Leads (· = '/') LineComment := fun ⟨_⟩ => rfl

theorem blockComment_leads : Leads (· = '/') BlockComment := fun h => by cases h <;> rfl

theorem layoutRun_leads : Leads Layout LayoutRun := fun ⟨hne, run⟩ => run.head hne

theorem maximalWord_leads : Leads WordStart MaximalWord := fun ⟨hc, _⟩ => hc

theorem mark_leads : Leads (∃ p : Punctuation, p.char = ·) Mark := fun ⟨⟩ => ⟨_, rfl⟩

theorem stringLiteral_leads : Leads (· = '"') StringLiteral := fun h => by cases h <;> rfl

theorem numberLiteral_leads : Leads Digit NumberLiteral := fun h => by
  cases h with
  | integer hne run _ => exact run.head hne
  | decimal hne run _ _ => exact run.head hne
  | malformed hne run _ => exact run.head hne

section Classes

variable {c : Char}

theorem Layout.ne_slash (h : Layout c) : c ≠ '/' := by
  rcases h with rfl | rfl | rfl | rfl <;> decide

theorem Layout.not_wordStart (h : Layout c) : ¬WordStart c := by
  rcases h with rfl | rfl | rfl | rfl <;> decide

theorem Layout.not_wordPart (h : Layout c) : ¬WordPart c := by
  rcases h with rfl | rfl | rfl | rfl <;> decide

theorem Layout.not_digit (h : Layout c) : ¬Digit c := by
  rcases h with rfl | rfl | rfl | rfl <;> decide

theorem WordStart.ne_slash (h : WordStart c) : c ≠ '/' := by
  rintro rfl
  revert h
  decide

theorem Digit.not_wordStart (h : Digit c) : ¬WordStart c := by
  simp only [Digit, WordStart, Letter, Char.le_def, UInt32.le_iff_toNat_le] at h ⊢
  have not_sign : ∀ d : Char, ¬Digit d → c ≠ d := by
    rintro d hd rfl
    exact hd h
  simp only [not_sign '_' (by decide), not_sign '$' (by decide), not_sign '%' (by decide),
    not_sign '#' (by decide), or_false]
  have : 'a'.val.toNat = 97 ∧ 'A'.val.toNat = 65 ∧ '9'.val.toNat = 57 := by decide
  omega

theorem Digit.not_layout (h : Digit c) : ¬Layout c := fun hl => hl.not_digit h

theorem Digit.ne (h : Digit c) {d : Char} (hd : ¬Digit d) : c ≠ d := by
  rintro rfl
  exact hd h

theorem not_mark_of_digit (h : Digit c) : ¬∃ p : Punctuation, p.char = c := by
  intro h
  obtain ⟨p, rfl⟩ := h
  revert h
  cases p <;> decide

theorem mark_plain (p : Punctuation) :
    p.char ≠ '/' ∧ ¬Layout p.char ∧ ¬WordStart p.char := by
  cases p <;> decide

theorem not_mark_of_ofChar? (h : Punctuation.ofChar? c = none) :
    ¬∃ p : Punctuation, p.char = c := by
  intro h
  obtain ⟨p, hp⟩ := h
  rw [Punctuation.ofChar?_eq_some_iff.2 hp] at h
  cases h

theorem Spells.head_plain {text : List Char} {op : Operator} (h : Spells (c :: text) op) :
    ¬Layout c ∧ Punctuation.ofChar? c = none ∧ c ≠ '"' ∧ ¬Digit c := by
  obtain ⟨_, h⟩ := h
  cases op <;> cases h <;> decide

end Classes

section FirstMatches

variable {c : Char} {rest : List Char} {answer : Answer}

theorem FirstMatch.after {lead : Char → Prop} {spec : Spec} {specs : List Spec}
    (hl : Leads lead spec) (hc : ¬lead c) (h : FirstMatch specs (c :: rest) answer) :
    FirstMatch (spec :: specs) (c :: rest) answer :=
  .later (fun _ h' => hc (hl h')) h

theorem firstMatch_of_blockComment (h : BlockComment (c :: rest) answer) :
    FirstMatch specs (c :: rest) answer := by
  refine .later ?_ (.here h)
  intro other hother
  cases h <;> cases hother

theorem firstMatch_of_layoutRun (h : LayoutRun (c :: rest) answer) :
    FirstMatch specs (c :: rest) answer := by
  have slash := (layoutRun_leads h).ne_slash
  exact .after lineComment_leads slash (.after blockComment_leads slash (.here h))

theorem firstMatch_of_maximalWord (h : MaximalWord (c :: rest) answer) :
    FirstMatch specs (c :: rest) answer := by
  have hc := maximalWord_leads h
  have slash := hc.ne_slash
  exact .after lineComment_leads slash (.after blockComment_leads slash
    (.after layoutRun_leads (fun hl => hl.not_wordStart hc) (.here h)))

theorem firstMatch_of_mark (h : Mark (c :: rest) answer) :
    FirstMatch specs (c :: rest) answer := by
  obtain ⟨p, rfl⟩ := mark_leads h
  obtain ⟨slash, layout, word⟩ := mark_plain p
  exact .after lineComment_leads slash (.after blockComment_leads slash
    (.after layoutRun_leads layout (.after maximalWord_leads word (.here h))))

theorem firstMatch_of_stringLiteral (h : StringLiteral (c :: rest) answer) :
    FirstMatch specs (c :: rest) answer := by
  obtain rfl := stringLiteral_leads h
  have mark := not_mark_of_ofChar? (c := '"') rfl
  exact .after lineComment_leads (by decide) (.after blockComment_leads (by decide)
    (.after layoutRun_leads (by decide) (.after maximalWord_leads (by decide)
      (.after mark_leads mark (.here h)))))

theorem firstMatch_of_numberLiteral (h : NumberLiteral (c :: rest) answer) :
    FirstMatch specs (c :: rest) answer := by
  have hc := numberLiteral_leads h
  have slash := hc.ne (by decide : ¬Digit '/')
  exact .after lineComment_leads slash (.after blockComment_leads slash
    (.after layoutRun_leads hc.not_layout (.after maximalWord_leads hc.not_wordStart
      (.after mark_leads (not_mark_of_digit hc)
        (.after stringLiteral_leads (hc.ne (by decide : ¬Digit '"')) (.here h))))))

/-- The operators' turn comes where neither a comment nor a word begins. -/
theorem firstMatch_of_longestOperator (h : LongestOperator (c :: rest) answer)
    (hline : ∀ after, c :: rest ≠ '/' :: '/' :: after)
    (hblock : ∀ after, c :: rest ≠ '/' :: '*' :: after) (hword : ¬WordStart c) :
    FirstMatch specs (c :: rest) answer := by
  obtain ⟨text, op, hop⟩ : ∃ text op, Spells (c :: text) op := by
    cases h with
    | three _ hop => exact ⟨_, _, hop⟩
    | two hop _ => exact ⟨_, _, hop⟩
    | one hop _ => exact ⟨_, _, hop⟩
  obtain ⟨layout, mark, quote, digit⟩ := hop.head_plain
  refine .later ?_ (.later ?_ (.after layoutRun_leads layout (.after maximalWord_leads hword
    (.after mark_leads (not_mark_of_ofChar? mark) (.after stringLiteral_leads quote
      (.after numberLiteral_leads digit (.here h)))))))
  · intro other hother
    cases hother
    exact hline _ rfl
  · intro other hother
    cases hother <;> exact hblock _ rfl

theorem LongestOperator.exists_operator {source : List Char} {s : Scan}
    (h : LongestOperator source (.ok s)) :
    ∃ op text left, s = ⟨.operator op, text, left⟩ := by
  cases h <;> exact ⟨_, _, _, rfl⟩

/-- Where a comment begins no operator is taken. -/
theorem FirstMatch.not_comment {s : Scan} (h : FirstMatch specs (c :: rest) (.ok s))
    (hop : LongestOperator (c :: rest) (.ok s)) {d : Char} (hd : d = '/' ∨ d = '*') :
    ¬['/', d] <+: c :: rest := by
  rintro ⟨body, heq⟩
  have hs : scan c rest = .ok s := scan_eq_iff_firstMatch.2 h
  obtain ⟨op, text, after, rfl⟩ := hop.exists_operator
  cases heq
  rcases hd with rfl | rfl
  · cases hs
  · cases hclose : Rule.splitAtClose body <;>
      simp [scan, rules, Rule.lineComment, Rule.blockComment, hclose] at hs

/-- The rule that has its turn on the one source has it on the other, too, if it answers there. For
that the sources begin alike, and the second one with a comment only if the first one does. -/
theorem FirstMatch.carry {rest' : List Char} {s : Scan} (h : FirstMatch specs (c :: rest) (.ok s))
    (same : ∀ spec ∈ specs, spec (c :: rest) (.ok s) → spec (c :: rest') answer)
    (openers : ∀ d, d = '/' ∨ d = '*' → ['/', d] <+: c :: rest' → ['/', d] <+: c :: rest) :
    FirstMatch specs (c :: rest') answer := by
  simp only [specs, List.forall_mem_cons] at same
  obtain ⟨line, block, layout, word, mark, string, number, operator, -⟩ := same
  rcases h.cases with
    first | first | first | first | first | first | first | ⟨no_word, first⟩ | ⟨_, _, _, first⟩
  · exact .here (line first)
  · exact firstMatch_of_blockComment (block first)
  · exact firstMatch_of_layoutRun (layout first)
  · exact firstMatch_of_maximalWord (word first)
  · exact firstMatch_of_mark (mark first)
  · exact firstMatch_of_stringLiteral (string first)
  · exact firstMatch_of_numberLiteral (number first)
  · have not_word : ¬WordStart c := fun hc =>
      no_word _ (.mk hc (run_takeWhile fun _ => isWordPart_iff))
    have no_opener {d : Char} (hd : d = '/' ∨ d = '*') (body : List Char) :
        c :: rest' ≠ '/' :: d :: body := fun heq =>
      h.not_comment first hd (openers d hd (heq ▸ List.prefix_append ['/', d] body))
    exact firstMatch_of_longestOperator (operator first) (no_opener (.inl rfl))
      (no_opener (.inr rfl)) not_word
  · cases first

end FirstMatches

end Dispatch
end FrontEnd
