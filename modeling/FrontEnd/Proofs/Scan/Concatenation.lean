import FrontEnd.Proofs.Scan.Course
import FrontEnd.Proofs.Scan.RoundTrip

/-!
# FrontEnd.Proofs.Scan.Concatenation

A source put in front of another, with a line break between them.

* `Dispatch.Stable spec` — a lexeme of the rule stays what it is where a line break and more source
  come behind. All rules are so but the one for layout, which takes the line break as well.
* `Scanner.Yields.append_line` — so the first source gives its tokens, up to the end of input, and
  the second one goes on from the line it is now on.
* `Scanner.Yields.lowered` — a source further down gives the same tokens, further down.
* `Scanner.tokens_append_line` — both together.
-/

namespace FrontEnd

/-- The scan with more source behind the rest. -/
def Scan.followedBy (s : Scan) (after : List Char) : Scan := { s with rest := s.rest ++ after }

namespace Dispatch

/-- A lexeme of the rule is taken just so where a line break and more source come behind. -/
def Stable (spec : Spec) : Prop :=
  ∀ {source : List Char} {s : Scan}, spec source (.ok s) →
    ∀ after, spec (source ++ '\n' :: after) (.ok (s.followedBy ('\n' :: after)))

theorem forall_head?_append_line {p : Char → Prop} {rest after : List Char}
    (h : ∀ c ∈ rest.head?, p c) (hbreak : p '\n') : ∀ c ∈ (rest ++ '\n' :: after).head?, p c := by
  cases rest with
  | nil => simpa using hbreak
  | cons c rest => exact h

theorem Run.append_line {p : Char → Prop} {source text rest after : List Char}
    (run : Run p source text rest) (hbreak : ¬p '\n') :
    Run p (source ++ '\n' :: after) text (rest ++ '\n' :: after) :=
  ⟨by rw [run.source_eq, List.append_assoc], run.inside,
    forall_head?_append_line run.stops hbreak⟩

theorem lineComment_stable : Stable LineComment := by
  intro source s h after
  cases h with
  | mk run => exact .mk (run.append_line (by simp))

theorem blockComment_stable : Stable BlockComment := by
  intro source s h after
  cases h with
  | @closed body rest hbody =>
    have closed : BlockComment ('/' :: '*' :: (body ++ '*' :: '/' :: (rest ++ '\n' :: after))) _ :=
      .closed hbody
    simpa [Scan.followedBy] using closed

theorem maximalWord_stable : Stable MaximalWord := by
  intro source s h after
  cases h with
  | mk hc run => exact .mk hc (run.append_line (by decide))

theorem mark_stable : Stable Mark := by
  intro source s h after
  cases h
  exact .mk

theorem stringLiteral_stable : Stable StringLiteral := by
  intro source s h after
  cases h with
  | @closed raw value rest content =>
    have closed : StringLiteral ('"' :: (raw ++ '"' :: (rest ++ '\n' :: after))) _ :=
      .closed content
    simpa [Scan.followedBy] using closed

theorem numberLiteral_stable : Stable NumberLiteral := by
  intro source s h after
  have no_point {rest : List Char} (h : '.' ∉ rest.head?) :
      '.' ∉ (rest ++ '\n' :: after).head? := fun hpoint =>
    forall_head?_append_line (fun _ hc => ne_of_mem_of_not_mem hc h) (by decide) _ hpoint rfl
  cases h with
  | integer hne run hpoint =>
    exact .integer hne (run.append_line (by decide)) (no_point hpoint)
  | decimal hne run run' hpoint =>
    exact .decimal hne (run.append_line (by decide)) (run'.append_line (by decide))
      (no_point hpoint)

theorem longestOperator_stable : Stable LongestOperator := by
  have no_longer (text : List Char) (op : Operator) : ¬Spells (text ++ ['\n']) op := fun h =>
    h.not_layout '\n' (by simp) (by decide)
  intro source s h after
  cases h with
  | three htwo hop => exact .three htwo hop
  | @two a b rest op hop hthree =>
    exact .two hop (forall_head?_append_line hthree (no_longer [a, b]))
  | @one a rest op hop htwo =>
    exact .one hop (forall_head?_append_line htwo (no_longer [a]))

end Dispatch

open Dispatch

/-- What is taken off a source, layout apart, is taken off just so where a line break and more
source come behind. -/
theorem scan_append_line {c : Char} {rest : List Char} {s : Scan} (h : scan c rest = .ok s) :
    LayoutRun (c :: rest) (.ok s) ∨
      ∀ after, scan c (rest ++ '\n' :: after) = .ok (s.followedBy ('\n' :: after)) := by
  rw [or_iff_not_imp_left]
  intro layout after
  refine scan_eq_iff_firstMatch.2 ((scan_eq_iff_firstMatch.1 h).carry ?_ ?_)
  · simp only [specs, List.forall_mem_cons]
    exact ⟨(lineComment_stable · after), (blockComment_stable · after),
      fun first => absurd first layout, (maximalWord_stable · after), (mark_stable · after),
      (stringLiteral_stable · after), (numberLiteral_stable · after),
      (longestOperator_stable · after), List.forall_mem_nil _⟩
  · -- the line break opens no comment behind a slash
    intro d hd hopener
    obtain ⟨rfl, second⟩ := List.cons_prefix_cons.1 hopener
    cases rest with
    | nil =>
      obtain ⟨rfl, -⟩ := List.cons_prefix_cons.1 second
      simp at hd
    | cons e rest =>
      obtain ⟨rfl, -⟩ := List.cons_prefix_cons.1 second
      exact List.prefix_append ['/', d] rest

namespace Token

/-- The token so many lines further down. -/
def lowered (token : Token) (lines : Nat) : Token := { token with line := token.line + lines }

@[simp] theorem lowered_eof {line lines : Nat} :
    (eof line).lowered lines = eof (line + lines) := rfl

end Token

/-- The error so many lines further down; a source that cannot be read has no lines. -/
def ScanError.lowered (lines : Nat) : ScanError → ScanError
  | unexpected c line => unexpected c (line + lines)
  | malformedNumber text line => malformedNumber text (line + lines)
  | unterminatedString line => unterminatedString (line + lines)
  | unterminatedComment line => unterminatedComment (line + lines)
  | invalidEscape c line => invalidEscape c (line + lines)
  | unreadable fault => unreadable fault

theorem ScanFault.atLine_lowered {line lines : Nat} {fault : ScanFault} :
    (fault.atLine line).lowered lines = fault.atLine (line + lines) := by
  cases fault with
  | invalidEscape passed c =>
    exact congrArg (ScanError.invalidEscape c) (Nat.add_right_comm _ _ _)
  | _ => rfl

namespace Scanner

namespace Yields

variable {line : Nat} {source text rest : List Char} {tokens later : TokenStream}
  {error? : Option ScanError}

theorem lowered (h : Yields line source tokens error?) (lines : Nat) :
    Yields (line + lines) source (tokens.map (·.lowered lines)) (error?.map (·.lowered lines)) := by
  induction h with
  | finish => exact .finish
  | fault hs =>
    rw [Option.map_some, ScanFault.atLine_lowered]
    exact .fault hs
  | token hs hf _ ih =>
    rw [Nat.add_right_comm] at ih
    exact .token hs hf ih
  | skip hs hf _ ih =>
    rw [Nat.add_right_comm] at ih
    exact .skip hs hf ih

theorem of_layouts (htext : ∀ c ∈ text, Layout c)
    (h : Yields (line + Text.lineBreaks text) rest tokens error?) :
    Yields line (text ++ rest) tokens error? := by
  induction text generalizing line with
  | nil => exact h
  | cons c text ih =>
    obtain ⟨hc, htext⟩ := List.forall_mem_cons.1 htext
    rw [← List.singleton_append, Text.lineBreaks_append, ← Nat.add_assoc] at h
    exact .of_layout hc (ih htext h)

/-- What comes behind a line break is scanned as if nothing but lines came before. The layout at
the end of the first source is taken together with the line break and what layout follows it. -/
theorem append_line (h : Yields line source tokens none)
    (hrest : Yields (line + Text.lineBreaks source + 1) rest later error?) :
    Yields line (source ++ '\n' :: rest) (tokens.dropLast ++ later) error? := by
  generalize he : (none : Option ScanError) = none? at h
  induction h with
  | finish => exact .of_layout (by decide) hrest
  | fault => cases he
  | @token line c _ s form tokens _ hs hf hlater ih =>
    subst he
    rw [← (scan_tiles hs).2, Text.lineBreaks_append, ← Nat.add_assoc] at hrest
    rcases scan_append_line hs with layout | stable
    · cases layout
      cases hf
    · obtain ⟨before, rfl⟩ := hlater.exists_eq_append_eof
      rw [List.dropLast_concat] at ih
      rw [← List.cons_append, List.dropLast_concat, List.cons_append]
      exact .token (stable rest) hf (ih hrest rfl)
  | skip hs hf hlater ih =>
    rw [← (scan_tiles hs).2, Text.lineBreaks_append, ← Nat.add_assoc] at hrest
    rcases scan_append_line hs with layout | stable
    · cases layout with
      | mk _ run =>
        rw [run.source_eq, List.append_assoc]
        exact of_layouts run.inside (ih hrest he)
    · exact .skip (stable rest) hf (ih hrest he)

theorem drain_ofSource {source : String} {verbose : Bool}
    (h : Yields 1 source.toList tokens error?) :
    (ofSource source verbose).drain.tokens = tokens ∧
      (ofSource source verbose).drain.error? = error? :=
  yields_drain.unique h

end Yields

theorem tokens_eq_error_iff {source : String} {verbose : Bool} {error : ScanError} :
    (ofSource source verbose).tokens.result = .error error ↔
      (ofSource source verbose).drain.error? = some error := by
  rw [Scanner.tokens]
  cases (ofSource source verbose).drain.error? <;> simp

/-- Of two sources with a line break between them, the first of which is scanned without error,
the tokens are those of the first, without its end of input, and those of the second further down
by the lines of the first. An error in the second ends the whole just there, further down too. -/
theorem tokens_append_line (first second : String) (verbose : Bool) (tokens : TokenStream)
    (h : (ofSource first verbose).tokens.result = .ok tokens) :
    let lines := 1 + Text.lineBreaks first.toList
    let whole := ofSource (first ++ "\n" ++ second) verbose
    ∃ before, tokens = before ++ [Token.eof lines] ∧
      (∀ later, (ofSource second verbose).tokens.result = .ok later →
        ∃ behind, later = behind ++ [Token.eof (1 + Text.lineBreaks second.toList)] ∧
          whole.tokens.result = .ok (before ++ behind.map (·.lowered lines) ++
            [Token.eof (1 + Text.lineBreaks second.toList + lines)])) ∧
      ∀ error, (ofSource second verbose).tokens.result = .error error →
        whole.tokens.result = .error (error.lowered lines) ∧
        whole.drain.tokens =
          before ++ (ofSource second verbose).drain.tokens.map (·.lowered lines) := by
  intro lines whole
  have yields := tokens_eq_ok_iff.1 h
  obtain ⟨before, rfl⟩ := yields.exists_eq_append_eof
  have joined {later : TokenStream} {error? : Option ScanError}
      (hlater : Yields 1 second.toList later error?) :
      Yields 1 (first ++ "\n" ++ second).toList (before ++ later.map (·.lowered lines))
        (error?.map (·.lowered lines)) := by
    have down := hlater.lowered lines
    rw [Nat.add_comm] at down
    simpa [lines] using yields.append_line down
  refine ⟨before, rfl, fun later hlater => ?_, fun error herror => ?_⟩
  · have whole := joined (tokens_eq_ok_iff.1 hlater)
    obtain ⟨behind, rfl⟩ := (tokens_eq_ok_iff.1 hlater).exists_eq_append_eof
    refine ⟨behind, rfl, tokens_eq_ok_iff.2 ?_⟩
    simpa using whole
  · have fails : Yields 1 second.toList _ (ofSource second verbose).drain.error? := yields_drain
    rw [tokens_eq_error_iff.1 herror] at fails
    obtain ⟨htokens, herror?⟩ := (joined fails).drain_ofSource
    exact ⟨tokens_eq_error_iff.2 herror?, htokens⟩

/-- The comment at the end of the first source ends with it; the string in the second one is
opened on the second line of the whole. -/
theorem tokens_append_line_comment :
    (ofSource "a//" false).tokens.result = .ok [⟨.identifier "a", 1⟩, ⟨.eof, 1⟩] ∧
      (ofSource "b" false).tokens.result = .ok [⟨.identifier "b", 1⟩, ⟨.eof, 1⟩] ∧
      (ofSource "a//\nb" false).tokens.result =
        .ok [⟨.identifier "a", 1⟩, ⟨.identifier "b", 2⟩, ⟨.eof, 2⟩] ∧
      (ofSource "\"" false).tokens.result = .error (.unterminatedString 1) ∧
      (ofSource "a//\n\"" false).tokens.result = .error (.unterminatedString 2) ∧
      (ofSource "a//\n\"" false).drain.tokens = [⟨.identifier "a", 1⟩] := by
  have first : Yields 1 ['a', '/', '/'] [⟨.identifier "a", 1⟩, ⟨.eof, 1⟩] none :=
    .token rfl rfl (.skip rfl rfl .finish)
  have second : Yields 1 ['b'] [⟨.identifier "b", 1⟩, ⟨.eof, 1⟩] none := .token rfl rfl .finish
  have unclosed : Yields 1 "\"".toList [] (some (ScanFault.unterminatedString.atLine 1)) :=
    .fault (c := '"') rfl
  have scanned : (ofSource "a//" false).tokens.result = .ok _ := tokens_eq_ok_iff.2 first
  have scanned' : (ofSource "b" false).tokens.result = .ok _ := tokens_eq_ok_iff.2 second
  obtain ⟨nothing, error⟩ := unclosed.drain_ofSource
  have failed : (ofSource "\"" false).tokens.result = .error (.unterminatedString 1) :=
    tokens_eq_error_iff.2 error
  have alone {name : String} {before : TokenStream} {last : Token}
      (h : [⟨.identifier name, 1⟩] ++ [⟨.eof, 1⟩] = before ++ [last]) :
      [⟨.identifier name, 1⟩] = before := (List.append_inj' h rfl).1
  refine ⟨scanned, scanned', ?_, failed, ?_⟩
  · obtain ⟨before, hbefore, success, _⟩ := tokens_append_line "a//" "b" false _ scanned
    obtain ⟨behind, hbehind, whole⟩ := success _ scanned'
    obtain rfl := alone hbefore
    obtain rfl := alone hbehind
    exact whole
  · obtain ⟨before, hbefore, _, failure⟩ := tokens_append_line "a//" "\"" false _ scanned
    obtain ⟨whole, yielded⟩ := failure _ failed
    obtain rfl := alone hbefore
    rw [nothing] at yielded
    exact ⟨whole, yielded⟩

end Scanner

end FrontEnd
