import FrontEnd.Proofs.Scan.Delimited
import Mathlib.Data.List.Forall2

/-!
# FrontEnd.Proofs.Scan.FirstMatch

The scanner as a whole does what the relations about the characters say.

* `Dispatch.findSome?_eq_iff` — rules tried in their order find the first match, if each does
  what its relation says; `Dispatch.rules_implement`: they do.
* `Dispatch.FirstMatch.cases` — whose answer the first match is.
* `scan_eq_iff_firstMatch` — so the scanner finds the first match.
* `Lexeme.form?_eq_iff_makes` — the token of a lexeme.
* `scan_dispatch` — all of it together.
-/

namespace FrontEnd

namespace Dispatch

/-- Rules that do what the relations say, tried in their order, find the first match. -/
theorem findSome?_eq_iff {rules : List Rule} {specs : List Spec} {c : Char} {rest : List Char}
    (h : List.Forall₂ Implements rules specs) {answer : Answer} :
    (rules.findSome? (· (c :: rest))).getD (.error (.unexpected c)) = answer ↔
      FirstMatch specs (c :: rest) answer := by
  induction h with
  | nil =>
    constructor
    · rintro rfl
      exact .unexpected
    · intro h
      cases h
      rfl
  | @cons rule spec rules specs hrule _ ih =>
    cases hr : rule (c :: rest) with
    | some found =>
      rw [List.findSome?_cons, hr, Option.getD_some]
      constructor
      · rintro rfl
        exact .here ((hrule _ _).1 hr)
      · intro h
        rcases h with hspec | ⟨hnone, _⟩
        · exact Option.some.inj (hr.symm.trans ((hrule _ _).2 hspec))
        · exact absurd ((hrule _ _).1 hr) (hnone found)
    | none =>
      rw [List.findSome?_cons, hr, ih]
      constructor
      · exact .later (hrule.eq_none_iff.1 hr)
      · intro h
        rcases h with hspec | ⟨_, hlater⟩
        · exact absurd hspec (hrule.eq_none_iff.1 hr answer)
        · exact hlater

theorem rules_implement : List.Forall₂ Implements rules specs := by
  simp only [rules, specs, List.forall₂_cons, List.forall₂_nil_left_iff, and_true]
  exact ⟨lineComment_implements, blockComment_implements, layout_implements, word_implements,
    punctuation_implements, string_implements, number_implements, operator_implements⟩

/-- It is one of the rules that answers, or none of them has an answer. -/
theorem FirstMatch.exists_mem {specs : List Spec} {source : List Char} {answer : Answer}
    (h : FirstMatch specs source answer) :
    (∃ spec ∈ specs, spec source answer) ∨
      (∀ spec ∈ specs, ∀ other, ¬spec source other) ∧
        ∃ c rest, source = c :: rest ∧ answer = .error (.unexpected c) := by
  induction h with
  | @here spec _ _ _ h => exact .inl ⟨spec, List.mem_cons_self, h⟩
  | later hnone _ ih =>
    rcases ih with ⟨spec, hmem, h⟩ | ⟨hnone', hanswer⟩
    · exact .inl ⟨spec, List.mem_cons_of_mem _ hmem, h⟩
    · exact .inr ⟨List.forall_mem_cons.2 ⟨hnone, hnone'⟩, hanswer⟩
  | unexpected => exact .inr ⟨nofun, _, _, rfl, rfl⟩

theorem firstMatch_unexpected {specs : List Spec} {c : Char} {rest : List Char}
    (h : ∀ spec ∈ specs, ∀ other, ¬spec (c :: rest) other) :
    FirstMatch specs (c :: rest) (.error (.unexpected c)) := by
  induction specs with
  | nil => exact .unexpected
  | cons spec specs ih =>
    obtain ⟨hspec, hspecs⟩ := List.forall_mem_cons.1 h
    exact .later hspec (ih hspecs)

/-- Whose answer the first match is. Of the rules that had to pass, the one for words matters to
what operators there can be. -/
theorem FirstMatch.cases {source : List Char} {answer : Answer}
    (h : FirstMatch specs source answer) :
    LineComment source answer ∨ BlockComment source answer ∨ LayoutRun source answer ∨
      MaximalWord source answer ∨ Mark source answer ∨ StringLiteral source answer ∨
      NumberLiteral source answer ∨
      ((∀ other, ¬MaximalWord source other) ∧ LongestOperator source answer) ∨
      ∃ c rest, source = c :: rest ∧ answer = .error (.unexpected c) := by
  unfold specs at h
  rcases h with h | ⟨_, h⟩
  · exact .inl h
  rcases h with h | ⟨_, h⟩
  · exact .inr (.inl h)
  rcases h with h | ⟨_, h⟩
  · exact .inr (.inr (.inl h))
  rcases h with h | ⟨no_word, h⟩
  · exact .inr (.inr (.inr (.inl h)))
  refine .inr (.inr (.inr (.inr ?_)))
  rcases h with h | ⟨_, h⟩
  · exact .inl h
  rcases h with h | ⟨_, h⟩
  · exact .inr (.inl h)
  rcases h with h | ⟨_, h⟩
  · exact .inr (.inr (.inl h))
  rcases h with h | ⟨_, h⟩
  · exact .inr (.inr (.inr (.inl ⟨no_word, h⟩)))
  cases h
  exact .inr (.inr (.inr (.inr ⟨_, _, rfl, rfl⟩)))

end Dispatch

open Dispatch

theorem scan_eq_iff_firstMatch {c : Char} {rest : List Char} {answer : Answer} :
    scan c rest = answer ↔ FirstMatch specs (c :: rest) answer :=
  findSome?_eq_iff rules_implement

namespace Lexeme

theorem form?_eq_of_makes {lexeme : Lexeme} {form? : Option Token.Form}
    (h : lexeme.Makes form?) : lexeme.form? = form? := by
  have no_keyword : ∀ {word : String}, (∀ k : Keyword, k.lexeme ≠ word) →
      Keyword.ofLexeme? word = none := fun hk =>
    Option.eq_none_iff_forall_ne_some.2 fun k h => hk k (Keyword.ofLexeme?_eq_some_iff.1 h)
  cases h with
  | keyword => simp [form?, Token.Form.ofWord, Keyword.ofLexeme?_lexeme]
  | nullWord _ hword => subst hword; decide
  | trueWord _ hword => subst hword; decide
  | falseWord _ hword => subst hword; decide
  | @identifier word hk hword =>
    have hliteral : LiteralWord.ofLexeme? word = none := by
      refine Option.eq_none_iff_forall_ne_some.2 fun w h => hword ?_
      cases LiteralWord.ofLexeme?_eq_some_iff.1 h
      cases w <;> decide
    simp only [form?, Token.Form.ofWord, no_keyword hk, hliteral]
  | operator hasKind => simp [form?, Token.Form.ofOperator, hasKind]
  | kindless hnone => simp [form?, Token.Form.ofOperator, hnone]
  | _ => rfl

theorem makes_form? (lexeme : Lexeme) : lexeme.Makes lexeme.form? := by
  cases lexeme with
  | word word =>
    simp only [form?, Token.Form.ofWord]
    cases hk : Keyword.ofLexeme? word with
    | some k =>
      cases Keyword.ofLexeme?_eq_some_iff.1 hk
      exact .keyword
    | none =>
      have no_keyword : ∀ k : Keyword, k.lexeme ≠ word := fun k h => by
        rw [Keyword.ofLexeme?_eq_some_iff.2 h] at hk
        cases hk
      cases hw : LiteralWord.ofLexeme? word with
      | some w =>
        have hword := (LiteralWord.ofLexeme?_eq_some_iff.1 hw).symm
        cases w with
        | nullWord => exact .nullWord no_keyword hword
        | trueWord => exact .trueWord no_keyword hword
        | falseWord => exact .falseWord no_keyword hword
      | none =>
        refine .identifier no_keyword fun hmem => ?_
        simp only [List.mem_cons, List.not_mem_nil, or_false] at hmem
        rcases hmem with rfl | rfl | rfl <;> exact absurd hw (by decide)
  | operator op =>
    simp only [form?, Token.Form.ofOperator]
    split
    · exact .operator _
    · rename_i hnone
      exact .kindless (Option.not_isSome_iff_eq_none.1 hnone)
  | insignificant => exact .insignificant
  | punctuation p => exact .punctuation
  | string value => exact .string
  | number digits => exact .number

theorem form?_eq_iff_makes {lexeme : Lexeme} {form? : Option Token.Form} :
    lexeme.form? = form? ↔ lexeme.Makes form? :=
  ⟨fun h => h ▸ makes_form? lexeme, form?_eq_of_makes⟩

end Lexeme

/-- The scanner makes of a source what the first rule says that takes it at all, and of the lexeme
the token it stands for; what follows a quote is a string literal in exactly one way. -/
theorem scan_dispatch :
    (∀ (c : Char) (rest : List Char) (answer : Answer),
      scan c rest = answer ↔ FirstMatch specs (c :: rest) answer) ∧
    (∀ (lexeme : Lexeme) (form? : Option Token.Form),
      lexeme.form? = form? ↔ lexeme.Makes form?) ∧
    ∀ after : List Char, ∃! answer, StringLiteral ('"' :: after) answer := by
  refine ⟨fun _ _ _ => scan_eq_iff_firstMatch, fun _ _ => Lexeme.form?_eq_iff_makes,
    fun after => ?_⟩
  obtain ⟨answer, h⟩ := exists_stringLiteral .nil after
  refine ⟨answer, h, fun other hother => ?_⟩
  exact Option.some.inj ((string_of_stringLiteral hother).symm.trans (string_of_stringLiteral h))

/-- The star of the opener does not close the comment. -/
example : scan '/' ['*', '/'] = .error .unterminatedComment := rfl

end FrontEnd
