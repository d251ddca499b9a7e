import FrontEnd.Proofs.Scan.RoundTrip

/-!
# FrontEnd.Proofs.Scan.Separators

What stands between the tokens of a source does not matter, as long as it keeps them apart.

* `Separator`, `Trailer` — layout and comments; behind the last token the last comment may go on
  to the end of the source.
* `SourceLayout` — scannable forms with the texts around them; `SourceLayout.text` is the source
  they make, `SourceLayout.stream` the tokens on the lines where the source has them.
* `Separator.yields`, `Trailer.yields` — a separator is passed, a trailer ends the source.
* `SourceLayout.tokens_text` — so the source gives the stream, and only the forms tell what the
  tokens are.
-/

namespace FrontEnd

open Dispatch

/-- Layout characters, block comments, and line comments each with the line break that ends it. -/
inductive Separator : List Char → Prop
  | nil : Separator []
  | layout {c : Char} {rest : List Char} : Layout c → Separator rest → Separator (c :: rest)
  | blockComment (body : List Char) {rest : List Char} : ¬['*', '/'] <:+: body → Separator rest →
    Separator ('/' :: '*' :: (body ++ '*' :: '/' :: rest))
  | lineComment (body : List Char) {rest : List Char} : '\n' ∉ body → Separator rest →
    Separator ('/' :: '/' :: (body ++ '\n' :: rest))

/-- A separator, or one with a line comment behind it that the source ends. -/
inductive Trailer : List Char → Prop
  | closed {text : List Char} : Separator text → Trailer text
  | lineComment {text : List Char} (body : List Char) : Separator text → '\n' ∉ body →
    Trailer (text ++ '/' :: '/' :: body)

/-- Forms of tokens, each with the text behind it. -/
abbrev SpacedForms := List (Token.Form × List Char)

namespace SpacedForms

def text (items : SpacedForms) : List Char :=
  items.flatMap fun item => item.1.sourceText.toList ++ item.2

/-- The tokens, if the first of them begins on `line`. -/
def tokens (items : SpacedForms) (line : Nat) : TokenStream :=
  items.mapIdx fun i item => ⟨item.1, line + Text.lineBreaks (text (items.take i))⟩

/-- Scannable forms, between any two of them a separator that begins with layout. Behind the last
one there may be nothing. -/
inductive Apart : SpacedForms → Prop
  | last {form : Token.Form} {after : List Char} : form.Scannable → Trailer after →
    Separated after → Apart [(form, after)]
  | more {form : Token.Form} {after : List Char} {items : SpacedForms} : form.Scannable →
    Separator after → after ≠ [] → Separated after → Apart items →
    Apart ((form, after) :: items)

end SpacedForms

/-- Forms as a source has them, with the text in front of the first. -/
structure SourceLayout where
  lead : List Char
  items : SpacedForms
  apart : items = [] ∧ Trailer lead ∨ Separator lead ∧ items.Apart

namespace SourceLayout

def forms (layout : SourceLayout) : List Token.Form := layout.items.map Prod.fst

/-- The source in front of the form at the index; behind the last form, the whole source. -/
def textBefore (layout : SourceLayout) (i : Nat) : List Char :=
  layout.lead ++ SpacedForms.text (layout.items.take i)

def text (layout : SourceLayout) : List Char := layout.textBefore layout.items.length

/-- Every token is on the line on which its text begins, the end of input on the last line. -/
def stream (layout : SourceLayout) : TokenStream :=
  (layout.items.mapIdx fun i item => ⟨item.1, 1 + Text.lineBreaks (layout.textBefore i)⟩) ++
    [Token.eof (1 + Text.lineBreaks layout.text)]

end SourceLayout

namespace Scanner

variable {line : Nat} {c : Char} {source text after rest body : List Char} {tokens : TokenStream}
  {error? : Option ScanError}

theorem Yields.of_insignificant
    (first : FirstMatch specs (c :: source) (.ok ⟨.insignificant, text, after⟩))
    (later : Yields (line + Text.lineBreaks text) after tokens error?) :
    Yields line (c :: source) tokens error? :=
  .skip (scan_eq_iff_firstMatch.2 first) rfl later

theorem firstMatch_lineComment (rest : List Char) (hbody : '\n' ∉ body)
    (hrest : ∀ c ∈ rest.head?, c = '\n') :
    FirstMatch specs ('/' :: '/' :: (body ++ rest))
      (.ok ⟨.insignificant, '/' :: '/' :: body, rest⟩) := by
  have run : Run (· ≠ '\n') (body ++ rest) body rest :=
    ⟨rfl, fun c hc => ne_of_mem_of_not_mem hc hbody, fun c hc hne => hne (hrest c hc)⟩
  exact .here (.mk run)

theorem firstMatch_blockComment (rest : List Char) (hbody : ¬['*', '/'] <:+: body) :
    FirstMatch specs ('/' :: '*' :: (body ++ '*' :: '/' :: rest))
      (.ok ⟨.insignificant, '/' :: '*' :: (body ++ ['*', '/']), rest⟩) := by
  refine firstMatch_of_blockComment (.closed fun hclose => ?_)
  -- the star behind the body cannot be the end of a closing mark
  rcases List.infix_concat_iff.1 hclose with hsuffix | hinfix
  · have : '/' = '*' := by simpa using hsuffix.getLast (by simp)
    exact absurd this (by decide)
  · exact hbody hinfix

end Scanner

open Scanner

section Separators

variable {line : Nat} {rest text : List Char} {tokens : TokenStream} {error? : Option ScanError}

theorem Separator.yields (h : Separator text)
    (later : Yields (line + Text.lineBreaks text) rest tokens error?) :
    Yields line (text ++ rest) tokens error? := by
  induction h generalizing line with
  | nil => exact later
  | @layout c text hc _ ih =>
    rw [← List.singleton_append, Text.lineBreaks_append, ← Nat.add_assoc] at later
    exact .of_layout hc (ih later)
  | @blockComment body text hbody _ ih =>
    have split_text : '/' :: '*' :: (body ++ '*' :: '/' :: text) =
        '/' :: '*' :: (body ++ ['*', '/']) ++ text := by simp
    rw [split_text, Text.lineBreaks_append, ← Nat.add_assoc] at later
    have first := firstMatch_blockComment (text ++ rest) hbody
    simpa using Yields.of_insignificant first (ih later)
  | @lineComment body text hbody _ ih =>
    have split_text : '/' :: '/' :: (body ++ '\n' :: text) =
        '/' :: '/' :: body ++ (['\n'] ++ text) := by simp
    rw [split_text, Text.lineBreaks_append, Text.lineBreaks_append, ← Nat.add_assoc,
      ← Nat.add_assoc] at later
    have first := firstMatch_lineComment ('\n' :: (text ++ rest)) hbody (by simp)
    have behind : Yields _ ('\n' :: (text ++ rest)) tokens error? :=
      .of_layout (by decide) (ih later)
    simpa using Yields.of_insignificant first behind

theorem Trailer.yields (h : Trailer text) :
    Yields line text [Token.eof (line + Text.lineBreaks text)] none := by
  cases h with
  | closed hsep =>
    have behind : Yields (line + Text.lineBreaks text) [] [Token.eof _] none := .finish
    simpa using hsep.yields behind
  | @lineComment text body hsep hbody =>
    refine hsep.yields ?_
    have first := firstMatch_lineComment [] hbody (by simp)
    rw [List.append_nil] at first
    rw [Text.lineBreaks_append, ← Nat.add_assoc]
    exact .of_insignificant first .finish

end Separators

namespace SpacedForms

variable {line : Nat} {form : Token.Form} {after : List Char} {items : SpacedForms}

theorem text_cons :
    text ((form, after) :: items) = form.sourceText.toList ++ (after ++ text items) := by
  simp [text]

theorem tokens_cons :
    tokens ((form, after) :: items) line =
      ⟨form, line⟩ ::
        tokens items (line + Text.lineBreaks form.sourceText.toList + Text.lineBreaks after) := by
  simp [tokens, List.mapIdx_cons, text, Nat.add_assoc]

/-- The separators keep the forms apart, so each is taken as a whole. -/
theorem Apart.yields (h : items.Apart) :
    Yields line items.text (items.tokens line ++ [Token.eof (line + Text.lineBreaks items.text)])
      none := by
  induction h generalizing line with
  | @last form after hform htrailer hafter =>
    have behind : Yields (line + Text.lineBreaks form.sourceText.toList) after _ none :=
      htrailer.yields
    have whole := Yields.of_scannable hform hafter behind
    simpa [text, tokens, Nat.add_assoc] using whole
  | @more form after items hform hsep hne hafter _ ih =>
    have separated : Separated (after ++ text items) := by
      obtain ⟨c, after, rfl⟩ := List.exists_cons_of_ne_nil hne
      exact hafter
    rw [text_cons, tokens_cons, Text.lineBreaks_append, Text.lineBreaks_append, ← Nat.add_assoc,
      ← Nat.add_assoc]
    exact .of_scannable hform separated (hsep.yields ih)

end SpacedForms

namespace SourceLayout

theorem yields_stream (layout : SourceLayout) : Yields 1 layout.text layout.stream none := by
  obtain ⟨lead, items, ⟨rfl, htrailer⟩ | ⟨hlead, hitems⟩⟩ := layout
  · have whole : Yields 1 lead _ none := htrailer.yields
    simpa [stream, text, textBefore, SpacedForms.text] using whole
  · have whole : Yields 1 (lead ++ items.text) _ none := hlead.yields hitems.yields
    simpa [stream, text, textBefore, SpacedForms.tokens, Nat.add_assoc] using whole

theorem stream_forms (layout : SourceLayout) :
    layout.stream.map Token.form = layout.forms ++ [.eof] := by
  have form_of_item : Token.form ∘ (fun item : (Token.Form × List Char) × Nat =>
      (⟨item.1.1, 1 + Text.lineBreaks (layout.textBefore item.2)⟩ : Token)) =
        Prod.fst ∘ Prod.fst := rfl
  rw [stream, List.map_append, List.mapIdx_eq_zipIdx_map, List.map_map, form_of_item,
    ← List.map_map, List.zipIdx_map_fst]
  rfl

/-- A source of scannable forms with separators between them gives exactly these forms, each on
the line on which its text begins, and the end of input behind them; another source of the same
forms gives the same stream, lines apart. -/
theorem tokens_text (layout : SourceLayout) (verbose : Bool) :
    (ofSource (String.ofList layout.text) verbose).tokens.result = .ok layout.stream ∧
    ∀ other : SourceLayout, other.forms = layout.forms →
      ∃ stream, (ofSource (String.ofList other.text) verbose).tokens.result = .ok stream ∧
        stream.Same layout.stream := by
  have scanned (layout : SourceLayout) :
      (ofSource (String.ofList layout.text) verbose).tokens.result = .ok layout.stream :=
    tokens_eq_ok_iff.2 (by rw [String.toList_ofList]; exact layout.yields_stream)
  refine ⟨scanned layout, fun other hforms => ⟨_, scanned other, ?_⟩⟩
  rw [TokenStream.Same, stream_forms, stream_forms, hforms]

/-- A quote in a comment opens no string, and the opener of a block comment in a line comment
opens no comment. -/
theorem tokens_text_with_comments :
    ∃ plain commented : SourceLayout,
      plain.text = ['a', ' ', '1'] ∧
      commented.text =
        ['/', '*', '"', '*', '/', 'a', ' ', '/', '/', '*', '\n', '1', '\n', '/', '/'] ∧
      plain.stream = [⟨.identifier "a", 1⟩, ⟨.number "1", 1⟩, ⟨.eof, 1⟩] ∧
      commented.stream = [⟨.identifier "a", 1⟩, ⟨.number "1", 2⟩, ⟨.eof, 3⟩] ∧
      (ofSource "a 1" false).tokens.result = .ok plain.stream ∧
      commented.forms = plain.forms ∧
      ∃ stream, (ofSource "/*\"*/a //*\n1\n//" false).tokens.result = .ok stream ∧
        stream.Same plain.stream := by
  have name : (Token.Form.identifier "a").Scannable :=
    ⟨isWord_of_all rfl rfl rfl, fun k => by cases k <;> decide, by decide⟩
  have number : (Token.Form.number "1").Scannable :=
    ⟨['1'], by decide, by simp [Digit], .inl rfl⟩
  have blank : Separator [' '] := .layout (by decide) .nil
  have lead : Separator ['/', '*', '"', '*', '/'] :=
    .blockComment ['"'] (by decide) .nil
  have between : Separator [' ', '/', '/', '*', '\n'] :=
    .layout (by decide) (.lineComment ['*'] (by decide) .nil)
  have behind : Trailer ['\n', '/', '/'] :=
    Trailer.lineComment [] (.layout (by decide) .nil : Separator ['\n']) (by decide)
  have apart (c : Char) (rest : List Char) (hc : Layout c) : Separated (c :: rest) := by
    simpa [Separated] using hc
  let plain : SourceLayout := ⟨[], [(.identifier "a", [' ']), (.number "1", [])],
    .inr ⟨.nil, .more name blank (by decide) (apart _ _ (by decide))
      (.last number (.closed .nil) (by simp [Separated]))⟩⟩
  let commented : SourceLayout := ⟨['/', '*', '"', '*', '/'],
    [(.identifier "a", [' ', '/', '/', '*', '\n']), (.number "1", ['\n', '/', '/'])],
    .inr ⟨lead, .more name between (by decide) (apart _ _ (by decide))
      (.last number behind (apart _ _ (by decide)))⟩⟩
  obtain ⟨scanned, alike⟩ := tokens_text plain false
  exact ⟨plain, commented, rfl, rfl, rfl, rfl, scanned, rfl, alike commented rfl⟩

end SourceLayout

end FrontEnd
