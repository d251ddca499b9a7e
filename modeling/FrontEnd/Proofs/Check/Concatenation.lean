import FrontEnd.Check
import FrontEnd.Proofs.Recognizer.Continuation
import FrontEnd.Proofs.Recognizer.Session

/-!
# FrontEnd.Proofs.Check.Concatenation

A source put in front of another, with a line break between them, from text to verdict.

* `Check.recognizer?` — the recognizer at the end of a check.
* `Scanner.Yields.behind_line` — what the whole is scanned to.
* `Recognizer.verdict_of_alike` — the verdict on tokens further down, behind a program.
* `Check.text_append_line` — behind a source that is accepted, another one is checked as it is by
  itself, further down.
-/

namespace FrontEnd

namespace Scanner

variable {first second : String} {before later : TokenStream} {last : Nat}
  {error? : Option ScanError}

/-- No token but the last one is an end of input. -/
theorem Yields.kind_ne_eof {line : Nat} {source : List Char}
    (h : Yields line source (before ++ [Token.eof last]) none) : ∀ t ∈ before, t.kind ≠ .eof := by
  obtain ⟨forms, hforms, hscannable⟩ := yields_scannable h
  rw [List.map_append] at hforms
  obtain ⟨hbefore, -⟩ := List.append_inj' hforms rfl
  intro t ht
  exact (hscannable t.form (hbefore ▸ List.mem_map_of_mem ht)).kind_ne_eof

/-- Behind the tokens of the first source come those of the second, further down by the lines of
the first. -/
theorem Yields.behind_line (h : Yields 1 first.toList (before ++ [Token.eof last]) none)
    (hlater : Yields 1 second.toList later error?) :
    let lines := 1 + Text.lineBreaks first.toList
    Yields 1 (first ++ "\n" ++ second).toList (before ++ later.map (·.lowered lines))
      (error?.map (·.lowered lines)) := by
  intro lines
  have down := hlater.lowered lines
  rw [Nat.add_comm] at down
  simpa [lines] using h.append_line down

theorem tokens_eq_error_of_behind_line {error : ScanError}
    (h : Yields 1 first.toList (before ++ [Token.eof last]) none)
    (hs : (ofSource second false).tokens.result = .error error) :
    (ofSource (first ++ "\n" ++ second) false).tokens.result =
      .error (error.lowered (1 + Text.lineBreaks first.toList)) := by
  have fails : Yields 1 second.toList _ (ofSource second false).drain.error? := yields_drain
  rw [tokens_eq_error_iff.1 hs] at fails
  exact tokens_eq_error_iff.2 (h.behind_line fails).drain_ofSource.2

end Scanner

namespace Recognizer

open Recog

/-- On a recognizer whose run ends like that of another one, further down, the verdict is that on
the other one, further down. Up to the first keyword an error of the other one is on line 0. -/
theorem verdict_of_alike {lines line size : Nat} {r s : Recognizer}
    (h : Alike (Below lines line size) (recognize r) (recognize s)) :
    r.verdict.1 = .ok () ∧ s.verdict.1 = .ok () ∨
      ∃ error, r.verdict.1 = .error (.rejected error) ∧
        (true ∉ r.verdict.2.byKeyword → error.located.line = 0) ∧
        s.verdict.1 = .error (.rejected (error.lowered lines
          (if true ∈ r.verdict.2.byKeyword then error.located.line + lines else line))) := by
  have rejected {r' s' : Recognizer} (complaint : Complaint) (path : List String)
      (h : Below lines line size r' s') :
      (true ∉ r'.byKeyword → (r'.complain complaint path).located.line = 0) ∧
        s'.complain complaint path = (r'.complain complaint path).lowered lines
          (if true ∈ r'.byKeyword then (r'.complain complaint path).located.line + lines
            else line) := by
    rw [h.complain]
    rcases h.line with ⟨hk, hl⟩ | ⟨hk, hzero, hl⟩
    · exact ⟨fun hnone => absurd hk hnone, by rw [if_pos hk, hl]; rfl⟩
    · exact ⟨fun _ => hzero, by rw [if_neg hk, hl]⟩
  unfold verdict
  generalize hr : recognize r = x at h
  generalize recognize s = y at h
  cases h with
  | ok a h => exact .inl ⟨rfl, rfl⟩
  | recoverable complaint path h =>
    obtain ⟨hzero, hs⟩ := rejected complaint path h
    exact .inr ⟨_, rfl, hzero, by rw [hs]; rfl⟩
  | fatal complaint path h =>
    obtain ⟨hzero, hs⟩ := rejected complaint path h
    exact .inr ⟨_, rfl, hzero, by rw [hs]; rfl⟩
  | misuse => exact absurd hr (recognize_ne_misuse _ _)

/-- A program without tokens leaves the line where it was. -/
theorem line_eq_zero_of_matched_eq_empty {tokens : TokenStream} {label : String} {verbose : Bool}
    {left : Recognizer} (h : recognize (ofTokens tokens label verbose) = .ok () left)
    (hmatched : left.matched = #[]) : left.line = 0 := by
  have hsteps := (Operates.recognize trivial).steps (ofTokens tokens label verbose)
  rw [leaves_of_ok h] at hsteps
  obtain ⟨k, hk⟩ := (StandsAt.ofTokens tokens label verbose).steps hsteps
  have hzero : k = 0 := by simpa [hmatched] using (congrArg List.length hk.matched).symm
  refine hk.line_of_none fun hmem => ?_
  rw [List.eq_nil_of_length_eq_zero (hk.byKeyword.trans hzero)] at hmem
  cases hmem

end Recognizer

namespace Check

open Recognizer

/-- The recognizer at the end of a check, if the text could be scanned. -/
def recognizer? (source label : String) : Option Recognizer :=
  match (openText source label false).result with
  | .ok opened => some opened.verdict.2
  | .error _ => none

section Stages

variable {source : String} {tokens : TokenStream} (label : String)

theorem text_of_scanned (h : (Scanner.ofSource source false).tokens.result = .ok tokens) :
    (text source label).result = (ofTokens tokens label false).verdict.1 ∧
      recognizer? source label = some (ofTokens tokens label false).verdict.2 := by
  simp only [text, recognize, recognizer?, openText, h, and_self]

theorem text_of_unscannable {error : ScanError}
    (h : (Scanner.ofSource source false).tokens.result = .error error) :
    (text source label).result = .error (.unscannable error) := by
  simp only [text, recognize, openText, h]

/-- What is accepted was scanned to tokens with an end of input behind them, and recognized. -/
theorem exists_of_text_eq_ok (h : (text source label).result = .ok ()) :
    ∃ before last left, Scanner.Yields 1 source.toList (before ++ [Token.eof last]) none ∧
      Recognizer.recognize (ofTokens (before ++ [Token.eof last]) label false) = .ok () left ∧
      recognizer? source label = some left := by
  cases hs : (Scanner.ofSource source false).tokens.result with
  | error error =>
    rw [text_of_unscannable label hs] at h
    cases h
  | ok tokens =>
    obtain ⟨hresult, hafter⟩ := text_of_scanned label hs
    have yields := Scanner.tokens_eq_ok_iff.1 hs
    obtain ⟨before, rfl⟩ := yields.exists_eq_append_eof
    rw [hresult] at h
    unfold verdict at h hafter
    cases hr : Recognizer.recognize (ofTokens (before ++ [_]) label false) with
    | ok a left =>
      rw [hr] at hafter
      exact ⟨before, _, left, yields, hr, hafter⟩
    | error stop left =>
      rw [hr] at h
      cases stop <;> cases h

end Stages

/-- Behind a source that is accepted, and a line break, a source is accepted if it is by itself.
If it is not, the whole fails in the same stage with the same error, further down by the lines of
the first source. But a syntax error is reported further down only behind a keyword of its own
source, before which the line is 0; in the whole it is the line left by the first source, which
is 0, too, if there is no declaration in it. -/
theorem text_append_line (first second label : String)
    (h : (text first label).result = .ok ()) :
    let lines := 1 + Text.lineBreaks first.toList
    let whole := (text (first ++ "\n" ++ second) label).result
    ∃ left, recognizer? first label = some left ∧ (left.matched = #[] → left.line = 0) ∧
      (whole = .ok () ↔ (text second label).result = .ok ()) ∧
      ∀ error, (text second label).result = .error error →
        (∃ scan, error = .unscannable scan ∧ whole = .error (.unscannable (scan.lowered lines))) ∨
        ∃ syn right, error = .rejected syn ∧ recognizer? second label = some right ∧
          (true ∉ right.byKeyword → syn.located.line = 0) ∧
          whole = .error (.rejected (syn.lowered lines
            (if true ∈ right.byKeyword then syn.located.line + lines else left.line))) := by
  intro lines whole
  obtain ⟨before, last, left, yields, hleft, hafter⟩ := exists_of_text_eq_ok label h
  refine ⟨left, hafter, line_eq_zero_of_matched_eq_empty hleft, ?_⟩
  cases hs : (Scanner.ofSource second false).tokens.result with
  | error scan =>
    have hwhole : whole = .error (.unscannable (scan.lowered lines)) :=
      text_of_unscannable label (Scanner.tokens_eq_error_of_behind_line yields hs)
    rw [hwhole, text_of_unscannable label hs]
    refine ⟨⟨nofun, nofun⟩, fun error herror => .inl ⟨scan, ?_, rfl⟩⟩
    exact (Except.error.inj herror).symm
  | ok later =>
    have yields' := Scanner.tokens_eq_ok_iff.1 hs
    have hlater : later ≠ [] := by
      obtain ⟨behind, rfl⟩ := yields'.exists_eq_append_eof
      exact List.concat_ne_nil _ _
    obtain ⟨hsecond, hright⟩ := text_of_scanned label hs
    obtain ⟨hwhole, -⟩ := text_of_scanned label
      (Scanner.tokens_eq_ok_iff.2 (yields.behind_line yields'))
    have alike := recognize_continues lines yields.kind_ne_eof hlater hleft
    rw [hsecond, show whole = _ from hwhole]
    rcases verdict_of_alike alike with ⟨hr, hw⟩ | ⟨syn, hr, hzero, hw⟩
    · rw [hr, hw]
      exact ⟨Iff.rfl, nofun⟩
    · rw [hr, hw]
      refine ⟨⟨nofun, nofun⟩, fun error herror => .inr ⟨syn, _, ?_, hright, hzero, rfl⟩⟩
      exact (Except.error.inj herror).symm

/-- Behind a variable whose name is on line 2: a brace that no keyword comes before is reported on
that line, a header without a name on its own, and so is a string that is not closed. -/
theorem text_append_line_variable :
    (text "static var\n a;" "a.sir").result = .ok () ∧
      (text "static var\n a;\n\x7d" "a.sir").result =
        .error (.rejected ⟨⟨.expectedEnd ⟨.punctuation .rBrace, 3⟩, "a.sir", 2⟩,
          some ["program"]⟩) ∧
      (text "static var\n a;\n\nroutine" "a.sir").result =
        .error (.rejected ⟨⟨.expected "routine name identifier" (.eof 4), "a.sir", 4⟩,
          some ["program", "declaration", "routine_declaration", "routine_header"]⟩) ∧
      (text "static var\n a;\n\"" "a.sir").result =
        .error (.unscannable (.unterminatedString 3)) := by
  have accepted : (text "static var\n a;" "a.sir").result = .ok () := by decide +kernel
  have left_line : (recognizer? "static var\n a;" "a.sir").map (·.line) = some 2 := by
    decide +kernel
  have brace : (text "\x7d" "a.sir").result = .error (.rejected
      ⟨⟨.expectedEnd ⟨.punctuation .rBrace, 1⟩, "a.sir", 0⟩, some ["program"]⟩) := by
    decide +kernel
  have brace_matches : (recognizer? "\x7d" "a.sir").map (·.byKeyword) = some [] := by
    decide +kernel
  have header : (text "\nroutine" "a.sir").result = .error (.rejected
      ⟨⟨.expected "routine name identifier" (.eof 2), "a.sir", 2⟩,
        some ["program", "declaration", "routine_declaration", "routine_header"]⟩) := by
    decide +kernel
  have header_matches : (recognizer? "\nroutine" "a.sir").map (·.byKeyword) = some [true] := by
    decide +kernel
  have unclosed : (text "\"" "a.sir").result = .error (.unscannable (.unterminatedString 1)) := by
    decide +kernel
  refine ⟨accepted, ?_, ?_, ?_⟩
  · obtain ⟨left, hleft, -, -, errors⟩ := text_append_line _ "\x7d" _ accepted
    obtain ⟨_, ⟨⟩, -⟩ | ⟨_, right, ⟨⟩, hright, -, hwhole⟩ := errors _ brace
    rw [hleft] at left_line
    rw [hright] at brace_matches
    have left_two : left.line = 2 := Option.some.inj left_line
    have no_match : right.byKeyword = [] := Option.some.inj brace_matches
    rw [no_match, left_two] at hwhole
    exact hwhole
  · obtain ⟨left, -, -, -, errors⟩ := text_append_line _ "\nroutine" _ accepted
    obtain ⟨_, ⟨⟩, -⟩ | ⟨_, right, ⟨⟩, hright, -, hwhole⟩ := errors _ header
    rw [hright] at header_matches
    have one_match : right.byKeyword = [true] := Option.some.inj header_matches
    rw [one_match] at hwhole
    exact hwhole
  · obtain ⟨left, -, -, -, errors⟩ := text_append_line _ "\"" _ accepted
    obtain ⟨_, ⟨⟩, hwhole⟩ | ⟨_, right, ⟨⟩, -⟩ := errors _ unclosed
    exact hwhole

end Check
end FrontEnd
