import FrontEnd.Proofs.Scan.Truncation

/-!
# FrontEnd.Proofs.Scan.Location

Where an error of the scanner is, and what it says of that place.

* `Scanner.Tiled source tiles rest` — lexemes scanned one behind the other from the front of the
  source. Their texts make it up (`Scanner.Tiled.text_append`); `Scanner.tokensOf` has their tokens.
* `Scanner.StopsAt source tiles offset` — behind them, at the offset, nothing can be scanned. There
  is only one such place (`Scanner.StopsAt.unique`).
* `Scanner.Located front rest error` — the error that the characters of `rest` make behind `front`.
  They make one only (`Scanner.Located.unique`).
* `Scanner.error_located` — every error is the one at that place.
-/

namespace FrontEnd
namespace Scanner

open Dispatch

/-- A lexeme with the text it was read from. -/
structure Tile where
  lexeme : Lexeme
  text : List Char

def covers (tiles : List Tile) : List Char := tiles.flatMap Tile.text

/-- The tokens of the lexemes, the first of which begins on the line. -/
def tokensOf (line : Nat) : List Tile → TokenStream
  | [] => []
  | tile :: tiles =>
    (tile.lexeme.token? line).toList ++ tokensOf (line + Text.lineBreaks tile.text) tiles

inductive Tiled : List Char → List Tile → List Char → Prop
  | nil {rest : List Char} : Tiled rest [] rest
  | cons {c : Char} {rest text between after : List Char} {lexeme : Lexeme} {tiles : List Tile} :
    scan c rest = .ok ⟨lexeme, text, between⟩ → Tiled between tiles after →
    Tiled (c :: rest) (⟨lexeme, text⟩ :: tiles) after

/-- Behind the lexemes no other one can be scanned, though the source is not at its end. -/
def StopsAt (source : List Char) (tiles : List Tile) (offset : Nat) : Prop :=
  ∃ c rest fault, source.drop offset = c :: rest ∧ Tiled source tiles (c :: rest) ∧
    scan c rest = .error fault

/-- The error of a lexeme that begins behind `front`, where `rest` begins. A character is unexpected
where no rule has an answer. Only a bad escape, which is the first one of its literal, may be on a
later line than the lexeme. -/
inductive Located (front : List Char) : List Char → ScanError → Prop
  | unexpected {c : Char} {rest : List Char} :
    (∀ spec ∈ specs, ∀ answer, ¬spec (c :: rest) answer) →
    Located front (c :: rest) (.unexpected c (1 + Text.lineBreaks front))
  | malformedNumber {whole fraction rest : List Char} : whole ≠ [] → (∀ c ∈ whole, Digit c) →
    (∀ c ∈ fraction, Digit c) →
    Located front (whole ++ '.' :: (fraction ++ '.' :: rest))
      (.malformedNumber (String.ofList (whole ++ '.' :: (fraction ++ ['.'])))
        (1 + Text.lineBreaks front))
  | unterminatedString {raw value : List Char} : Content raw value →
    Located front ('"' :: raw) (.unterminatedString (1 + Text.lineBreaks front))
  | unterminatedEscape {raw value : List Char} : Content raw value →
    Located front ('"' :: (raw ++ ['\\'])) (.unterminatedString (1 + Text.lineBreaks front))
  | unterminatedComment {after : List Char} : ¬['*', '/'] <:+: after →
    Located front ('/' :: '*' :: after) (.unterminatedComment (1 + Text.lineBreaks front))
  | invalidEscape {raw value rest : List Char} {c : Char} : Content raw value →
    (∀ v, ¬Escape c v) →
    Located front ('"' :: (raw ++ '\\' :: c :: rest))
      (.invalidEscape c (1 + Text.lineBreaks (front ++ '"' :: (raw ++ ['\\']))))

section Tiles

variable {source rest text : List Char} {tile : Tile} {tiles : List Tile} {line : Nat}
  {lexeme : Lexeme}

theorem covers_cons : covers (tile :: tiles) = tile.text ++ covers tiles := List.flatMap_cons

theorem tokensOf_token {form : Token.Form} (h : lexeme.form? = some form) :
    tokensOf line (⟨lexeme, text⟩ :: tiles) =
      ⟨form, line⟩ :: tokensOf (line + Text.lineBreaks text) tiles := by
  rw [tokensOf, Lexeme.token?, h]
  rfl

theorem tokensOf_skip (h : lexeme.form? = none) :
    tokensOf line (⟨lexeme, text⟩ :: tiles) = tokensOf (line + Text.lineBreaks text) tiles := by
  rw [tokensOf, Lexeme.token?, h]
  rfl

theorem Tiled.text_append (h : Tiled source tiles rest) : covers tiles ++ rest = source := by
  induction h with
  | nil => rfl
  | cons hs _ ih => rw [covers_cons, List.append_assoc, ih, (scan_tiles hs).2]

/-- The lexemes are the same where nothing comes behind them. -/
theorem Tiled.truncated (h : Tiled source tiles rest) : Tiled (covers tiles) tiles [] := by
  induction h with
  | nil => exact .nil
  | cons hs hrest ih =>
    obtain ⟨_, rfl, hs'⟩ := scan_truncated hs ⟨_, hrest.text_append⟩
    rw [covers_cons]
    exact .cons hs' ih

theorem Tiled.yields {later : TokenStream} {error? : Option ScanError}
    (h : Tiled source tiles rest)
    (hrest : Yields (line + Text.lineBreaks (covers tiles)) rest later error?) :
    Yields line source (tokensOf line tiles ++ later) error? := by
  induction h generalizing line with
  | nil => exact hrest
  | @cons _ _ _ _ _ lexeme _ hs _ ih =>
    rw [covers_cons, Text.lineBreaks_append, ← Nat.add_assoc] at hrest
    cases hform : lexeme.form? with
    | none =>
      rw [tokensOf_skip hform]
      exact .skip hs hform (ih hrest)
    | some form =>
      rw [tokensOf_token hform]
      exact .token hs hform (ih hrest)

theorem Yields.exists_tiled {tokens : TokenStream} {error : ScanError}
    (h : Yields line source tokens (some error)) :
    ∃ tiles c rest fault, Tiled source tiles (c :: rest) ∧ scan c rest = .error fault ∧
      tokens = tokensOf line tiles ∧
      error = fault.atLine (line + Text.lineBreaks (covers tiles)) := by
  generalize he : some error = error? at h
  induction h with
  | finish => cases he
  | @fault line c rest fault hs =>
    cases he
    exact ⟨[], c, rest, fault, .nil, hs, rfl, rfl⟩
  | token hs hform _ ih =>
    obtain ⟨tiles, c, rest, fault, htiled, hfault, rfl, rfl⟩ := ih he
    refine ⟨_ :: tiles, c, rest, fault, .cons hs htiled, hfault, (tokensOf_token hform).symm, ?_⟩
    rw [covers_cons, Text.lineBreaks_append, Nat.add_assoc]
  | skip hs hform _ ih =>
    obtain ⟨tiles, c, rest, fault, htiled, hfault, rfl, rfl⟩ := ih he
    refine ⟨_ :: tiles, c, rest, fault, .cons hs htiled, hfault, (tokensOf_skip hform).symm, ?_⟩
    rw [covers_cons, Text.lineBreaks_append, Nat.add_assoc]

/-- Scanning goes on as long as it can, so it stops in one place only. -/
theorem Tiled.unique {tiles' : List Tile} {c c' : Char} {after after' : List Char}
    {fault fault' : ScanFault} (h : Tiled source tiles (c :: after))
    (hfault : scan c after = .error fault) (h' : Tiled source tiles' (c' :: after'))
    (hfault' : scan c' after' = .error fault') : tiles' = tiles ∧ c' :: after' = c :: after := by
  generalize hstop : c :: after = stop at h
  induction h generalizing tiles' with
  | nil =>
    subst hstop
    cases h' with
    | nil => exact ⟨rfl, rfl⟩
    | cons hs => cases hfault.symm.trans hs
  | cons hs _ ih =>
    cases h' with
    | nil => cases hfault'.symm.trans hs
    | cons hs' hrest' =>
      cases hs.symm.trans hs'
      obtain ⟨rfl, heq⟩ := ih hrest' hstop
      exact ⟨rfl, heq⟩

theorem StopsAt.unique {tiles' : List Tile} {offset offset' : Nat}
    (h : StopsAt source tiles offset) (h' : StopsAt source tiles' offset') :
    tiles' = tiles ∧ offset' = offset := by
  obtain ⟨c, after, fault, hdrop, htiled, hfault⟩ := h
  obtain ⟨c', after', fault', hdrop', htiled', hfault'⟩ := h'
  obtain ⟨htiles, heq⟩ := htiled.unique hfault htiled' hfault'
  have lengths := congrArg List.length (hdrop'.trans (heq.trans hdrop.symm))
  have nonempty := congrArg List.length hdrop
  simp only [List.length_drop, List.length_cons] at lengths nonempty
  exact ⟨htiles, by omega⟩

end Tiles

section Faults

variable {front : List Char} {c : Char} {rest : List Char} {fault : ScanFault} {error : ScanError}

theorem atLine_invalidEscape {passed : List Char} {line : Nat}
    (hline : line = 1 + Text.lineBreaks front) :
    (ScanFault.invalidEscape passed c).atLine line =
      .invalidEscape c (1 + Text.lineBreaks (front ++ passed)) := by
  rw [ScanFault.atLine, hline, Text.lineBreaks_append, Nat.add_assoc]

/-- What the rules say of a fault, said of the place. -/
theorem located_of_fault (h : scan c rest = .error fault) :
    Located front (c :: rest) (fault.atLine (1 + Text.lineBreaks front)) := by
  rcases (scan_eq_iff_firstMatch.1 h).exists_mem with
    ⟨spec, hmem, hspec⟩ | ⟨hnone, _, _, heq, hanswer⟩
  · simp only [specs, List.mem_cons, List.not_mem_nil, or_false] at hmem
    rcases hmem with rfl | rfl | rfl | rfl | rfl | rfl | rfl | rfl
    · cases hspec
    · cases hspec with
      | unterminated hafter => exact .unterminatedComment hafter
    · cases hspec
    · cases hspec
    · cases hspec
    · cases hspec with
      | invalidEscape content bad =>
        rw [atLine_invalidEscape rfl]
        exact .invalidEscape content bad
      | unclosed content => exact .unterminatedString content
      | unclosedEscape content => exact .unterminatedEscape content
    · cases hspec with
      | malformed hne run run' =>
        rw [run.source_eq, run'.source_eq]
        exact .malformedNumber hne run.inside run'.inside
    · cases hspec
  · cases heq
    cases hanswer
    exact .unexpected hnone

theorem Located.exists_fault (h : Located front (c :: rest) error) :
    ∃ fault, scan c rest = .error fault ∧
      error = fault.atLine (1 + Text.lineBreaks front) := by
  generalize hsource : c :: rest = source at h
  cases h with
  | unexpected hnone =>
    cases hsource
    exact ⟨_, scan_eq_iff_firstMatch.2 (firstMatch_unexpected hnone), rfl⟩
  | @malformedNumber whole fraction after hne hwhole hfraction =>
    have point {behind : List Char} : ∀ c ∈ ('.' :: behind).head?, ¬Digit c := by
      rintro _ ⟨⟩
      decide
    have number : NumberLiteral (c :: rest) (.error (.malformedNumber _)) :=
      .malformed hne ⟨hsource, hwhole, point⟩ ⟨rfl, hfraction, point⟩
    exact ⟨_, scan_eq_iff_firstMatch.2 (firstMatch_of_numberLiteral number), rfl⟩
  | unterminatedString content =>
    cases hsource
    exact ⟨_, scan_eq_iff_firstMatch.2 (firstMatch_of_stringLiteral (.unclosed content)), rfl⟩
  | unterminatedEscape content =>
    cases hsource
    exact ⟨_, scan_eq_iff_firstMatch.2 (firstMatch_of_stringLiteral (.unclosedEscape content)), rfl⟩
  | unterminatedComment hafter =>
    cases hsource
    exact ⟨_, scan_eq_iff_firstMatch.2 (firstMatch_of_blockComment (.unterminated hafter)), rfl⟩
  | invalidEscape content bad =>
    cases hsource
    exact ⟨_, scan_eq_iff_firstMatch.2 (firstMatch_of_stringLiteral (.invalidEscape content bad)),
      (atLine_invalidEscape rfl).symm⟩

/-- The characters make one error. -/
theorem Located.unique {other : ScanError} (h : Located front (c :: rest) error)
    (hother : Located front (c :: rest) other) : other = error := by
  obtain ⟨fault, hfault, rfl⟩ := h.exists_fault
  obtain ⟨fault', hfault', rfl⟩ := hother.exists_fault
  cases hfault.symm.trans hfault'
  rfl

end Faults

/-- Where a source cannot be scanned, there is one place up to which it is scanned and at which no
lexeme can be. The tokens yielded before the error are those of the source up to there, which on its
own is scanned without error; and the error is the one that the characters from there on make, and
no other. -/
theorem error_located {source : String} {verbose : Bool} {error : ScanError}
    (h : (ofSource source verbose).tokens.result = .error error) :
    ∃ offset tiles,
      StopsAt source.toList tiles offset ∧
      (∀ offset' tiles', StopsAt source.toList tiles' offset' →
        tiles' = tiles ∧ offset' = offset) ∧
      covers tiles = source.toList.take offset ∧
      (ofSource source verbose).drain.tokens = tokensOf 1 tiles ∧
      (ofSource (String.ofList (source.toList.take offset)) verbose).tokens.result =
        .ok (tokensOf 1 tiles ++ [Token.eof (1 + Text.lineBreaks (source.toList.take offset))]) ∧
      Located (source.toList.take offset) (source.toList.drop offset) error ∧
      ∀ other, Located (source.toList.take offset) (source.toList.drop offset) other →
        other = error := by
  have yields : Yields 1 source.toList (ofSource source verbose).drain.tokens
      (ofSource source verbose).drain.error? := yields_drain
  rw [tokens_eq_error_iff.1 h] at yields
  obtain ⟨tiles, c, rest, fault, htiled, hfault, htokens, rfl⟩ := yields.exists_tiled
  have hsource := htiled.text_append
  have htake : source.toList.take (covers tiles).length = covers tiles := by
    rw [← hsource, List.take_left]
  have hdrop : source.toList.drop (covers tiles).length = c :: rest := by
    rw [← hsource, List.drop_left]
  have stops : StopsAt source.toList tiles (covers tiles).length :=
    ⟨c, rest, fault, hdrop, htiled, hfault⟩
  refine ⟨_, tiles, stops, fun _ _ => stops.unique, htake.symm, htokens, ?_, ?_⟩
  · rw [htake]
    refine tokens_eq_ok_iff.2 ?_
    rw [String.toList_ofList]
    exact htiled.truncated.yields .finish
  · rw [htake, hdrop]
    have located : Located (covers tiles) (c :: rest) _ := located_of_fault hfault
    exact ⟨located, fun _ => located.unique⟩

/-- A literal that begins on the second line, with a good escape and then a bad one on the third. -/
theorem error_located_escape :
    let start := ofSource "a\n\"b\\n\n\\q" false
    let tiles : List Tile := [⟨.word "a", ['a']⟩, ⟨.insignificant, ['\n']⟩]
    let rest := ['"', 'b', '\\', 'n', '\n', '\\', 'q']
    start.tokens.result = .error (.invalidEscape 'q' 3) ∧
    StopsAt ('a' :: '\n' :: rest) tiles 2 ∧
    start.drain.tokens = [⟨.identifier "a", 1⟩] ∧
    (ofSource (String.ofList ['a', '\n']) false).tokens.result =
      .ok [⟨.identifier "a", 1⟩, Token.eof 2] ∧
    Located ['a', '\n'] rest (.invalidEscape 'q' 3) := by
  intro start tiles rest
  have fails : Yields 1 ('a' :: '\n' :: rest) [⟨.identifier "a", 1⟩]
      (some (ScanFault.atLine 2 (.invalidEscape ['"', 'b', '\\', 'n', '\n', '\\'] 'q'))) :=
    .token rfl rfl (.skip rfl rfl (.fault rfl))
  have of_text : Yields 1 "a\n\"b\\n\n\\q".toList _ _ := fails
  have failed : start.tokens.result = .error (.invalidEscape 'q' 3) :=
    tokens_eq_error_iff.2 of_text.drain_ofSource.2
  have stops : StopsAt ('a' :: '\n' :: rest) tiles 2 :=
    ⟨_, _, _, rfl, .cons rfl (.cons rfl .nil), rfl⟩
  obtain ⟨offset, tiles', -, unique, -, yielded, alone, located, -⟩ := error_located failed
  obtain ⟨rfl, rfl⟩ := unique 2 tiles stops
  exact ⟨failed, stops, yielded, alone, located⟩

end Scanner
end FrontEnd
