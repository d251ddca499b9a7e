import FrontEnd.Scan.Scanner

/-!
# FrontEnd.Proofs.Scan.Yields

What a whole run of the scanner gives, as a relation.

* `Scanner.Yields line source tokens error?` — the source, which begins on `line`, gives these
  tokens, and then the run ends, perhaps with an error.
* `Scanner.drain_nil`, `Scanner.drain_fault`, … — a scanner drained, by what the first scan gives.
* `Scanner.yields_drain` — a scanner drained gives what the relation says.
* `Scanner.Yields.unique` — and the relation says only one thing.
* `Scanner.tokens_eq_ok_iff` — when a source is scanned without error.
-/

namespace FrontEnd
namespace Scanner

inductive Yields : Nat → List Char → TokenStream → Option ScanError → Prop
  | finish {line : Nat} : Yields line [] [Token.eof line] none
  | fault {line : Nat} {c : Char} {rest : List Char} {fault : ScanFault} :
    scan c rest = .error fault → Yields line (c :: rest) [] (some (fault.atLine line))
  | token {line : Nat} {c : Char} {rest : List Char} {s : Scan} {form : Token.Form}
      {tokens : TokenStream} {error? : Option ScanError} :
    scan c rest = .ok s → s.lexeme.form? = some form →
    Yields (line + Text.lineBreaks s.text) s.rest tokens error? →
    Yields line (c :: rest) (⟨form, line⟩ :: tokens) error?
  | skip {line : Nat} {c : Char} {rest : List Char} {s : Scan} {tokens : TokenStream}
      {error? : Option ScanError} :
    scan c rest = .ok s → s.lexeme.form? = none →
    Yields (line + Text.lineBreaks s.text) s.rest tokens error? →
    Yields line (c :: rest) tokens error?

section Drain

variable {verbose : Bool} {line : Nat}

theorem drain_of_next (scanner : Scanner) : scanner.drain =
    match scanner.next with
    | ⟨none, after, events⟩ => ⟨[], none, after, events⟩
    | ⟨some (.error error), after, events⟩ => ⟨[], some error, after, events⟩
    | ⟨some (.ok token), after, events⟩ =>
      { after.drain with
        tokens := token :: after.drain.tokens
        events := events ++ after.drain.events } := by
  rw [drain]
  split <;> rename_i h <;> rw [h]

theorem next_unfinished {source : List Char} :
    next ⟨source, line, verbose, false⟩ = read verbose line source := rfl

theorem drain_nil : drain ⟨[], line, verbose, false⟩ =
    ⟨[Token.eof line], none, ⟨[], line, verbose, true⟩, [.token verbose (Token.eof line)]⟩ := by
  have finished : drain ⟨[], line, verbose, true⟩ = ⟨[], none, ⟨[], line, verbose, true⟩, []⟩ :=
    drain_of_next _
  rw [drain_of_next, next_unfinished, read_nil]
  simp only [finished, List.append_nil]

variable {c : Char} {rest : List Char} {s : Scan}

theorem drain_fault {fault : ScanFault} (hs : scan c rest = .error fault) :
    drain ⟨c :: rest, line, verbose, false⟩ =
      ⟨[], some (fault.atLine line), ⟨c :: rest, line, verbose, true⟩, []⟩ := by
  rw [drain_of_next, next_unfinished, read_error hs]

theorem drain_token {form : Token.Form} (hs : scan c rest = .ok s)
    (hf : s.lexeme.form? = some form) :
    drain ⟨c :: rest, line, verbose, false⟩ =
      let later := drain ⟨s.rest, line + Text.lineBreaks s.text, verbose, false⟩
      { later with
        tokens := ⟨form, line⟩ :: later.tokens
        events :=
          .lexeme line s.text s.lexeme :: .token verbose ⟨form, line⟩ :: later.events } := by
  have ht : s.lexeme.token? line = some ⟨form, line⟩ := by rw [Lexeme.token?, hf]; rfl
  rw [drain_of_next, next_unfinished, read_token hs ht]
  rfl

theorem drain_skip (hs : scan c rest = .ok s) (hf : s.lexeme.form? = none) :
    drain ⟨c :: rest, line, verbose, false⟩ =
      let later := drain ⟨s.rest, line + Text.lineBreaks s.text, verbose, false⟩
      { later with events := .lexeme line s.text s.lexeme :: later.events } := by
  have ht : s.lexeme.token? line = none := by rw [Lexeme.token?, hf]; rfl
  rw [drain_of_next, next_unfinished, read_insignificant hs ht,
    drain_of_next ⟨s.rest, _, _, _⟩, next_unfinished]
  generalize read verbose (line + Text.lineBreaks s.text) s.rest = pull
  obtain ⟨_ | _ | _, _, _⟩ := pull <;> rfl

end Drain

variable {verbose : Bool} {line : Nat} {source : List Char}

/-- The induction is on the source, which every scan makes shorter. -/
theorem yields_drain :
    Yields line source (drain ⟨source, line, verbose, false⟩).tokens
      (drain ⟨source, line, verbose, false⟩).error? := by
  induction hn : source.length using Nat.strongRecOn generalizing line source with
  | ind n ih =>
    subst hn
    cases source with
    | nil =>
      rw [drain_nil]
      exact .finish
    | cons c rest =>
      cases hs : scan c rest with
      | error fault =>
        rw [drain_fault hs]
        exact .fault hs
      | ok s =>
        have later : Yields (line + Text.lineBreaks s.text) s.rest _ _ :=
          ih _ (scan_rest_lt hs) rfl
        cases hf : s.lexeme.form? with
        | some form =>
          rw [drain_token hs hf]
          exact .token hs hf later
        | none =>
          rw [drain_skip hs hf]
          exact .skip hs hf later

theorem Yields.unique {tokens tokens' : TokenStream} {error? error?' : Option ScanError}
    (h : Yields line source tokens error?) (h' : Yields line source tokens' error?') :
    tokens = tokens' ∧ error? = error?' := by
  induction h generalizing tokens' with
  | finish =>
    cases h'
    exact ⟨rfl, rfl⟩
  | fault hs => cases h' with
    | fault hs' =>
      cases hs.symm.trans hs'
      exact ⟨rfl, rfl⟩
    | token hs' _ _ => cases hs.symm.trans hs'
    | skip hs' _ _ => cases hs.symm.trans hs'
  | token hs hf _ ih => cases h' with
    | fault hs' => cases hs.symm.trans hs'
    | token hs' hf' hlater' =>
      cases hs.symm.trans hs'
      cases hf.symm.trans hf'
      obtain ⟨rfl, rfl⟩ := ih hlater'
      exact ⟨rfl, rfl⟩
    | skip hs' hf' _ =>
      cases hs.symm.trans hs'
      cases hf.symm.trans hf'
  | skip hs hf _ ih => cases h' with
    | fault hs' => cases hs.symm.trans hs'
    | token hs' hf' _ =>
      cases hs.symm.trans hs'
      cases hf.symm.trans hf'
    | skip hs' _ hlater' =>
      cases hs.symm.trans hs'
      exact ih hlater'

theorem tokens_eq_ok_iff {source : String} {tokens : TokenStream} :
    (ofSource source verbose).tokens.result = .ok tokens ↔
      Yields 1 source.toList tokens none := by
  have h : Yields 1 source.toList (drain (ofSource source verbose)).tokens
      (drain (ofSource source verbose)).error? := yields_drain
  rw [Scanner.tokens]
  cases he : (ofSource source verbose).drain.error? with
  | some error =>
    rw [he] at h
    refine ⟨nofun, fun h' => ?_⟩
    cases (h.unique h').2
  | none =>
    rw [he] at h
    constructor
    · intro h
      cases h
      exact h
    · intro h'
      rw [(h.unique h').1]

end Scanner
end FrontEnd
