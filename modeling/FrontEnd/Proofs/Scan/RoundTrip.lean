import FrontEnd.Proofs.Scan.Leading
import FrontEnd.Proofs.Scan.Scannable

/-!
# FrontEnd.Proofs.Scan.RoundTrip

The source text of a scannable stream scans to the stream again, and that of no other does.

* `Dispatch.exists_scan_sourceText` — in front of nothing, or of layout, the text of a
  scannable form is taken off as a whole, as that form.
* `Scanner.Yields.of_layout` — a layout character in front changes nothing but the lines.
* `Scanner.exists_yields_sourceTexts` — so the texts of scannable forms, with blanks between them,
  give the forms.
-/

namespace FrontEnd

namespace Dispatch

/-- Nothing, or a layout character and anything behind it. -/
def Separated (rest : List Char) : Prop := ∀ c ∈ rest.head?, Layout c

section Texts

variable {text : String} {rest : List Char}

theorem firstMatch_word (h : IsWord text) (hrest : Separated rest) :
    FirstMatch specs (text.toList ++ rest) (.ok ⟨.word text, text.toList, rest⟩) := by
  obtain ⟨c, part, ht, hc, hpart⟩ := h
  have run : Run WordPart (part ++ rest) part rest :=
    ⟨rfl, hpart, fun d hd => (hrest d hd).not_wordPart⟩
  have first := firstMatch_of_maximalWord (.mk hc run)
  rw [← ht, String.ofList_toList] at first
  rw [ht] at first ⊢
  exact first

theorem firstMatch_number (h : IsNumber text) (hrest : Separated rest) :
    FirstMatch specs (text.toList ++ rest) (.ok ⟨.number text, text.toList, rest⟩) := by
  have hdot : '.' ∉ rest.head? := fun h => absurd (hrest _ h) (by decide)
  have stops : ∀ d ∈ rest.head?, ¬Digit d := fun d hd => (hrest d hd).not_digit
  have first : ∀ {source : List Char} {answer : Answer}, source ≠ [] →
      NumberLiteral source answer → FirstMatch specs source answer := by
    intro source answer hne literal
    obtain ⟨c, rest, rfl⟩ := List.exists_cons_of_ne_nil hne
    exact firstMatch_of_numberLiteral literal
  obtain ⟨whole, hne, hwhole, ht | ⟨fraction, hfraction, ht⟩⟩ := h
  · have run : Run Digit (whole ++ rest) whole rest := ⟨rfl, hwhole, stops⟩
    have integer := first (by simp [hne]) (.integer hne run hdot)
    rwa [← ht, String.ofList_toList] at integer
  · have run : Run Digit (whole ++ '.' :: (fraction ++ rest)) whole ('.' :: (fraction ++ rest)) :=
      ⟨rfl, hwhole, by simp [Digit]⟩
    have run' : Run Digit (fraction ++ rest) fraction rest := ⟨rfl, hfraction, stops⟩
    have decimal := first (by simp) (.decimal hne run run' hdot)
    rw [← List.cons_append, ← List.append_assoc] at decimal
    rwa [← ht, String.ofList_toList] at decimal

theorem content_escapeLiteral {c : Char} (h : '\\' ≠ c) :
    Content (Token.escapeLiteral c) [c] := by
  unfold Token.escapeLiteral Token.escapeControl
  split_ifs with h0 hq hn ht hr hb
  · subst h0; exact .escape .nul .nil
  · subst hq; exact .escape .quote .nil
  · subst hn; exact .escape .lineBreak .nil
  · subst ht; exact .escape .tab .nil
  · subst hr; exact .escape .carriageReturn .nil
  · subst hb; exact .escape .backspace .nil
  · exact .plain hq h.symm .nil

theorem content_flatMap_escapeLiteral {value : List Char} (h : '\\' ∉ value) :
    Content (value.flatMap Token.escapeLiteral) value := by
  induction value with
  | nil => exact .nil
  | cons c value ih =>
    obtain ⟨hc, hvalue⟩ := not_or.1 (mt List.mem_cons.2 h)
    exact (content_escapeLiteral hc).append (ih hvalue)

theorem firstMatch_string (h : '\\' ∉ text.toList) :
    FirstMatch specs ((Token.inQuotes Token.escapeLiteral text).toList ++ rest)
      (.ok ⟨.string text, (Token.inQuotes Token.escapeLiteral text).toList, rest⟩) := by
  have closed : StringLiteral ('"' :: (_ ++ '"' :: rest)) _ :=
    .closed (content_flatMap_escapeLiteral h)
  rw [String.ofList_toList] at closed
  simpa [Token.inQuotes] using firstMatch_of_stringLiteral closed

theorem firstMatch_punctuation {p : Punctuation} :
    FirstMatch specs (p.lexeme.toList ++ rest)
      (.ok ⟨.punctuation p, p.lexeme.toList, rest⟩) := by
  have mark : Mark (p.char :: rest) _ := .mk
  simpa [Punctuation.lexeme] using firstMatch_of_mark mark

/-- No operator has a layout character in it, so one that layout follows cannot be longer. -/
theorem Spells.not_layout {text : List Char} {op : Operator} (h : Spells text op) :
    ∀ c ∈ text, ¬Layout c := by
  obtain ⟨_, rfl⟩ := h
  have no_layout : op.lexeme.toList.all (!isLayout ·) = true := by cases op <;> rfl
  intro c hc hl
  have := List.all_eq_true.1 no_layout c hc
  rw [isLayout_iff.2 hl] at this
  cases this

theorem Spells.of_slash {c : Char} {text : List Char} {op : Operator}
    (h : Spells ('/' :: c :: text) op) : c = '=' := by
  obtain ⟨_, h⟩ := h
  cases op <;> cases h
  rfl

theorem longestOperator_of_separated {op : Operator} (hop : Spells op.lexeme.toList op)
    (hrest : Separated rest) :
    LongestOperator (op.lexeme.toList ++ rest) (.ok ⟨.operator op, op.lexeme.toList, rest⟩) := by
  have no_longer : ∀ text, ∀ c ∈ rest.head?, ∀ op', ¬Spells (text ++ [c]) op' :=
    fun _ c hc _ hop' => hop'.not_layout c (by simp) (hrest c hc)
  match ht : op.lexeme.toList with
  | [] => exact absurd (ht ▸ hop) not_spells_nil
  | [a] => exact .one (ht ▸ hop) (no_longer [a])
  | [a, b] => exact .two (ht ▸ hop) (no_longer [a, b])
  | [a, b, c] =>
    obtain ⟨two, htwo⟩ := (ht ▸ hop : Spells [a, b, c] op).of_three
    exact .three htwo (ht ▸ hop)
  | a :: b :: c :: d :: text => cases op <;> cases ht

theorem firstMatch_operator {op : Operator} (h : op ≠ .mod ∧ op ≠ .modAssign)
    (hrest : Separated rest) :
    FirstMatch specs (op.lexeme.toList ++ rest)
      (.ok ⟨.operator op, op.lexeme.toList, rest⟩) := by
  have hop : Spells op.lexeme.toList op := ⟨by simpa [Operator.isScanned] using h.2, rfl⟩
  have literal := longestOperator_of_separated hop hrest
  cases ht : op.lexeme.toList with
  | nil => exact absurd (ht ▸ hop) not_spells_nil
  | cons a text =>
    have word : ¬WordStart a := by
      cases op <;> first | exact absurd rfl h.1 | exact absurd rfl h.2 | (cases ht; decide)
    -- behind a slash comes an equality sign, or nothing that could go on a comment
    have after_slash : ∀ {c : Char} {after : List Char}, a = '/' → text ++ rest = c :: after →
        c = '=' ∨ Layout c := by
      rintro c after rfl hc
      cases text with
      | nil =>
        rw [List.nil_append] at hc
        exact .inr (hrest c (by simp [hc]))
      | cons d text =>
        cases hc
        exact .inl (ht ▸ hop).of_slash
    rw [ht] at literal
    refine firstMatch_of_longestOperator literal ?_ ?_ word
    · intro after heq
      obtain ⟨ha, hafter⟩ := List.cons.inj heq
      exact absurd (after_slash ha hafter) (by decide)
    · intro after heq
      obtain ⟨ha, hafter⟩ := List.cons.inj heq
      exact absurd (after_slash ha hafter) (by decide)

end Texts

theorem isWord_of_all {text : String} {c : Char} {part : List Char} (ht : text.toList = c :: part)
    (hc : isWordStart c = true) (hpart : part.all isWordPart = true) : IsWord text :=
  ⟨c, part, ht, isWordStart_iff.1 hc, fun d hd => isWordPart_iff.1 (List.all_eq_true.1 hpart d hd)⟩

theorem isWord_keyword (k : Keyword) : IsWord k.lexeme := by
  cases k <;> exact isWord_of_all rfl rfl rfl

theorem isWord_literalWord (w : LiteralWord) : IsWord w.lexeme := by
  cases w <;> exact isWord_of_all rfl rfl rfl

theorem FirstMatch.source_ne_nil {source : List Char} {s : Scan}
    (h : FirstMatch specs source (.ok s)) : source ≠ [] := by
  have run_nil : ∀ {p : Char → Prop} {text rest : List Char}, Run p [] text rest → text = [] :=
    fun run => (List.append_eq_nil_iff.1 run.source_eq.symm).1
  rintro rfl
  rcases h.cases with h | h | h | h | h | h | h | ⟨_, h⟩ | ⟨_, _, _, h⟩
  · cases h
  · cases h
  · cases h with
    | mk hne run => exact hne (run_nil run)
  · cases h
  · cases h
  · cases h
  · cases h with
    | integer hne run _ => exact hne (run_nil run)
    | decimal hne run _ _ => exact hne (run_nil run)
  · cases h
  · cases h

theorem exists_scan_sourceText {form : Token.Form} (h : form.Scannable)
    {rest : List Char} (hrest : Separated rest) :
    ∃ lexeme, FirstMatch specs (form.sourceText.toList ++ rest)
        (.ok ⟨lexeme, form.sourceText.toList, rest⟩) ∧ lexeme.form? = some form := by
  cases form with
  | keyword k =>
    exact ⟨_, firstMatch_word (isWord_keyword k) hrest, Lexeme.form?_eq_of_makes .keyword⟩
  | identifier name =>
    obtain ⟨hword, hk, hw⟩ := h
    exact ⟨_, firstMatch_word hword hrest, Lexeme.form?_eq_of_makes (.identifier hk hw)⟩
  | number digits => exact ⟨_, firstMatch_number h hrest, rfl⟩
  | string value => exact ⟨_, firstMatch_string h, rfl⟩
  | bool value =>
    cases value with
    | true => exact ⟨_, firstMatch_word (isWord_literalWord .trueWord) hrest, by decide⟩
    | false => exact ⟨_, firstMatch_word (isWord_literalWord .falseWord) hrest, by decide⟩
  | null => exact ⟨_, firstMatch_word (isWord_literalWord .nullWord) hrest, by decide⟩
  | eof => exact h.elim
  | punctuation p => exact ⟨_, firstMatch_punctuation, rfl⟩
  | operator op hasKind =>
    exact ⟨_, firstMatch_operator h hrest, Lexeme.form?_eq_of_makes (.operator hasKind)⟩

end Dispatch

namespace Scanner

open Dispatch

variable {line : Nat} {rest : List Char} {tokens : TokenStream} {error? : Option ScanError}

theorem Yields.of_scannable {form : Token.Form} (h : form.Scannable) (hrest : Separated rest)
    (later : Yields (line + Text.lineBreaks form.sourceText.toList) rest tokens error?) :
    Yields line (form.sourceText.toList ++ rest) (⟨form, line⟩ :: tokens) error? := by
  obtain ⟨lexeme, first, hform⟩ := exists_scan_sourceText h hrest
  cases hs : form.sourceText.toList ++ rest with
  | nil => exact absurd hs first.source_ne_nil
  | cons c source =>
    rw [hs] at first
    exact .token (scan_eq_iff_firstMatch.2 first) hform later

theorem scan_layout {c : Char} {text after : List Char} (run : Run Layout (c :: rest) text after)
    (hc : Layout c) : scan c rest = .ok ⟨.insignificant, text, after⟩ := by
  refine scan_eq_iff_firstMatch.2 (firstMatch_of_layoutRun (.mk ?_ run))
  rintro rfl
  exact run.stops c (by rw [← List.nil_append after, ← run.source_eq]; rfl) hc

/-- The layout behind the character is taken with it at one go. -/
theorem Yields.of_layout {c : Char} (hc : Layout c)
    (h : Yields (line + Text.lineBreaks [c]) rest tokens error?) :
    Yields line (c :: rest) tokens error? := by
  have run : Run Layout rest _ _ := run_takeWhile fun _ => isLayout_iff
  generalize rest.takeWhile isLayout = text, rest.dropWhile isLayout = after at run
  have hs : scan c rest = .ok ⟨.insignificant, c :: text, after⟩ :=
    scan_layout ⟨congrArg (c :: ·) run.source_eq, List.forall_mem_cons.2 ⟨hc, run.inside⟩,
      run.stops⟩ hc
  refine .skip hs rfl ?_
  rw [← List.singleton_append, Text.lineBreaks_append, ← Nat.add_assoc]
  cases text with
  | nil =>
    cases run.source_eq
    exact h
  | cons d text =>
    have hd := run.inside d List.mem_cons_self
    obtain ⟨rest, rfl⟩ : ∃ rest', rest = d :: rest' := ⟨_, run.source_eq⟩
    have hs' := scan_layout run hd
    cases h with
    | fault hf => cases hs'.symm.trans hf
    | token ht hform _ =>
      cases hs'.symm.trans ht
      cases hform
    | skip ht _ later =>
      cases hs'.symm.trans ht
      exact later

/-- The texts of scannable forms, a blank between any two, give the forms again. -/
theorem exists_yields_sourceTexts {forms : List Token.Form}
    (h : ∀ form ∈ forms, form.Scannable) :
    ∃ tokens, Yields line (" ".intercalate (forms.map Token.Form.sourceText)).toList tokens none ∧
      tokens.map Token.form = forms ++ [.eof] := by
  induction forms generalizing line with
  | nil => exact ⟨_, .finish, rfl⟩
  | cons form forms ih =>
    obtain ⟨hform, hforms⟩ := List.forall_mem_cons.1 h
    cases forms with
    | nil =>
      have nothing : Separated [] := by simp [Separated]
      have last : Yields line (form.sourceText.toList ++ []) _ none :=
        .of_scannable hform nothing .finish
      have joined : " ".intercalate ([form].map Token.Form.sourceText) = form.sourceText :=
        String.intercalate_singleton
      rw [List.append_nil, ← joined] at last
      exact ⟨_, last, rfl⟩
    | cons next forms =>
      have blank : ∀ rest, Separated (' ' :: rest) := by simp [Separated, Layout]
      obtain ⟨tokens, later, htokens⟩ := ih hforms
      refine ⟨⟨form, line⟩ :: tokens, ?_, congrArg (form :: ·) htokens⟩
      rw [List.map_cons, List.map_cons, String.intercalate_cons_cons, String.toList_append,
        String.toList_append, List.append_assoc]
      exact .of_scannable hform (blank _) (.of_layout (.inl rfl) later)

end Scanner

theorem Token.Form.Scannable.kind_ne_eof {form : Token.Form} (h : form.Scannable) :
    form.kind ≠ .eof := by
  cases form with
  | eof => exact h.elim
  | punctuation p => cases p <;> decide
  | operator op hasKind =>
    intro hk
    have hop : op.kind? = some (operator op hasKind).kind := kind_operator
    rw [hk] at hop
    cases op <;> cases hop
  | _ => nofun

namespace TokenStream

open Scanner

theorem sourceText_eq_intercalate {tokens : TokenStream} {forms : List Token.Form}
    (htokens : tokens.map Token.form = forms ++ [.eof]) (h : ∀ form ∈ forms, form.Scannable) :
    tokens.sourceText = " ".intercalate (forms.map Token.Form.sourceText) := by
  have kept : (tokens.filter (·.kind != .eof)).map Token.form = forms := by
    have split_kind : (fun token : Token => token.kind != .eof) =
        (fun form : Token.Form => form.kind != .eof) ∘ Token.form := rfl
    rw [split_kind, ← List.filter_map, htokens, List.filter_append,
      List.filter_eq_self.2 fun form hf => by simpa using (h form hf).kind_ne_eof]
    simp [Token.Form.kind]
  rw [sourceText, ← kept, List.map_map]
  rfl

theorem exists_scans_of_scannable {tokens : TokenStream} (h : tokens.Scannable)
    (verbose : Bool) :
    ∃ again, (ofSource tokens.sourceText verbose).tokens.result = .ok again ∧
      again.Same tokens := by
  obtain ⟨forms, htokens, hforms⟩ := h
  obtain ⟨again, hyields, hagain⟩ := exists_yields_sourceTexts hforms
  rw [← sourceText_eq_intercalate htokens hforms] at hyields
  exact ⟨again, tokens_eq_ok_iff.2 hyields, hagain.trans htokens.symm⟩

/-- Writing a stream as source text and scanning that gives the stream again, lines apart, for
the scannable streams and no others; and what is scanned from any source is scannable. -/
theorem scans_sourceText_iff_scannable :
    (∀ (tokens : TokenStream) (verbose : Bool),
      (∃ again, (ofSource tokens.sourceText verbose).tokens.result = .ok again ∧
        again.Same tokens) ↔ tokens.Scannable) ∧
    ∀ (source : String) (verbose : Bool) (tokens : TokenStream),
      (ofSource source verbose).tokens.result = .ok tokens →
      tokens.Scannable ∧
        ∃ again, (ofSource tokens.sourceText verbose).tokens.result = .ok again ∧
          again.Same tokens := by
  refine ⟨fun tokens verbose => ⟨?_, fun h => exists_scans_of_scannable h verbose⟩, ?_⟩
  · intro h
    obtain ⟨again, hscan, hsame⟩ := h
    obtain ⟨forms, hagain, hforms⟩ := yields_scannable (tokens_eq_ok_iff.1 hscan)
    exact ⟨forms, hsame.symm.trans hagain, hforms⟩
  · intro source verbose tokens hscan
    have scannable := yields_scannable (tokens_eq_ok_iff.1 hscan)
    exact ⟨scannable, exists_scans_of_scannable scannable verbose⟩

/-- A word, a comment without blanks around it and a string with an escape. -/
theorem scans_sourceText_word_string :
    let tokens : TokenStream := [⟨.identifier "a", 1⟩, ⟨.string "\n", 1⟩, ⟨.eof, 1⟩]
    (ofSource "a/**/\"\\n\"" false).tokens.result = .ok tokens ∧
      tokens.Scannable ∧
        ∃ again, (ofSource tokens.sourceText false).tokens.result = .ok again ∧
          again.Same tokens := by
  intro tokens
  have yields : Yields 1 ['a', '/', '*', '*', '/', '"', '\\', 'n', '"'] tokens none :=
    .token rfl rfl (.skip rfl rfl (.token rfl rfl .finish))
  have scanned : (ofSource "a/**/\"\\n\"" false).tokens.result = .ok tokens :=
    tokens_eq_ok_iff.2 yields
  exact ⟨scanned, scans_sourceText_iff_scannable.2 _ _ _ scanned⟩

end TokenStream

end FrontEnd
