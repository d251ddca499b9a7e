import FrontEnd.Proofs.Recognizer.Asking
import FrontEnd.Proofs.Recognizer.Rejection
import FrontEnd.Proofs.Scan.Course

/-!
# FrontEnd.Proofs.Recognizer.Tracking

The line of a recognizer, which is that of the errors it makes, on the tokens of a source.

* `Recognizer.Ordered` — the line is not behind the lookahead, and the tokens are in the order of
  their lines from there on. A step keeps it and takes the line on or leaves it
  (`Recognizer.Ordered.step`).
* `Recognizer.StandsAt.line_of_last_keyword`, `Recognizer.StandsAt.line_eq_zero_iff` — the line by
  the tokens read.
* `Recognizer.line_of_scanned` — along a verdict the line never falls, and never passes that of the
  lookahead. Refused, it is the line of the token behind the last keyword.
-/

namespace FrontEnd
namespace Recognizer

open Recog Cursor

structure Ordered (r : Recognizer) : Prop where
  line_le : r.line ≤ r.lookahead.line
  ascending : (r.lookahead :: r.rest).Pairwise (·.line ≤ ·.line)

namespace Ordered

variable {judging : Prop} {r r' : Recognizer}

theorem ofTokens {tokens : TokenStream} {label : String} {verbose : Bool}
    (h : tokens.Pairwise (·.line ≤ ·.line)) : Ordered (ofTokens tokens label verbose) := by
  refine ⟨Nat.zero_le _, ?_⟩
  cases tokens with
  | nil => exact List.pairwise_singleton _ _
  | cons t rest => exact h

theorem lookahead_le_consume (h : Ordered r) : r.lookahead.line ≤ r.consume.lookahead.line := by
  obtain ⟨-, ascending⟩ := h
  unfold consume
  cases hrest : r.rest with
  | nil => exact Nat.le_refl _
  | cons t rest =>
    rw [hrest] at ascending
    exact List.rel_of_pairwise_cons ascending List.mem_cons_self

theorem ascending_consume (h : Ordered r) :
    (r.consume.lookahead :: r.consume.rest).Pairwise (·.line ≤ ·.line) := by
  obtain ⟨-, ascending⟩ := h
  unfold consume
  cases hrest : r.rest with
  | nil => exact List.pairwise_singleton _ _
  | cons t rest =>
    rw [hrest] at ascending
    exact ascending.of_cons

theorem step (h : Ordered r) (hstep : Step judging r r') : Ordered r' ∧ r.line ≤ r'.line := by
  cases hstep with
  | note => exact ⟨⟨h.line_le, h.ascending⟩, Nat.le_refl _⟩
  | token =>
    exact ⟨⟨Nat.le_trans h.line_le h.lookahead_le_consume, h.ascending_consume⟩, Nat.le_refl _⟩
  | keyword =>
    exact ⟨⟨Nat.le_refl _, h.ascending_consume⟩, Nat.le_trans h.line_le h.lookahead_le_consume⟩
  | nest | poison => exact ⟨⟨h.line_le, h.ascending⟩, Nat.le_refl _⟩

theorem steps (h : Ordered r) (hsteps : Steps judging r r') : Ordered r' ∧ r.line ≤ r'.line := by
  induction hsteps with
  | refl => exact ⟨h, Nat.le_refl _⟩
  | tail _ hstep ih =>
    obtain ⟨ordered, hle⟩ := ih
    obtain ⟨ordered', hle'⟩ := ordered.step hstep
    exact ⟨ordered', Nat.le_trans hle hle'⟩

end Ordered

section Behind

variable {tokens : TokenStream} {k : Nat} {r : Recognizer}

/-- If the tokens end in an end of input, it is not read, so that there always is a token behind
those that are. -/
theorem exists_behind {before : TokenStream} {line : Nat} {label : String} {verbose : Bool}
    {w : TokenStream} (htokens : tokens = before ++ [Token.eof line])
    (hreads : (ofTokens tokens label verbose).cursor.Reads w r.cursor) :
    ∃ behind, tokens = r.matched.toList ++ r.lookahead :: behind := by
  rcases hreads.stays_over over_ofTokens with hover | ⟨hall, -⟩
  · exact ⟨r.rest, hover⟩
  · have read : tokens = w := hall.trans hreads.matched
    have last : Token.eof line ∈ w := by
      rw [← read, htokens]
      exact List.mem_append_right _ List.mem_cons_self
    have front : Token.eof line ∈ tokens.beforeEof := by
      rw [beforeEof_of_reads hreads]
      exact List.mem_append_left _ last
    have not_eof := List.mem_takeWhile_imp front
    exact absurd rfl (of_decide_eq_true not_eof)

theorem exists_last_keyword (h : ∃ token ∈ tokens, token.kind = .keyword) :
    ∃ before keyword after, tokens = before ++ keyword :: after ∧ keyword.kind = .keyword ∧
      ∀ token ∈ after, token.kind ≠ .keyword := by
  induction tokens with
  | nil =>
    obtain ⟨token, hmem, -⟩ := h
    cases hmem
  | cons token tokens ih =>
    by_cases later : ∃ token ∈ tokens, token.kind = .keyword
    · obtain ⟨before, keyword, after, rfl, hlast⟩ := ih later
      exact ⟨token :: before, keyword, after, rfl, hlast⟩
    · have none_later : ∀ token ∈ tokens, token.kind ≠ .keyword :=
        fun token hmem hk => later ⟨token, hmem, hk⟩
      obtain ⟨_, hmem, hk⟩ := h
      rcases List.mem_cons.1 hmem with rfl | hmem
      · exact ⟨[], _, tokens, rfl, hk, none_later⟩
      · exact absurd hk (none_later _ hmem)

/-- The line is the one behind the last keyword read, by its place among the tokens read. -/
theorem StandsAt.line_of_last_keyword (stands : StandsAt tokens k r)
    (hr : r.byKeyword = keywords r.matched.toList) {before after behind : TokenStream}
    {keyword : Token} (htokens : tokens = r.matched.toList ++ r.lookahead :: behind)
    (hmatched : r.matched.toList = before ++ keyword :: after) (hk : keyword.kind = .keyword)
    (hafter : ∀ token ∈ after, token.kind ≠ .keyword) :
    ∃ next rest, after ++ [r.lookahead] = next :: rest ∧ next ∈ tokens ∧ r.line = next.line := by
  obtain ⟨next, rest, hnext⟩ : ∃ next rest, after ++ [r.lookahead] = next :: rest :=
    List.exists_cons_of_ne_nil (List.append_ne_nil_of_right_ne_nil _ (List.cons_ne_nil _ _))
  have split : tokens = before ++ keyword :: next :: (rest ++ behind) := by
    have onward : after ++ r.lookahead :: behind = next :: (rest ++ behind) := by
      rw [← List.cons_append, ← hnext, List.append_assoc, List.singleton_append]
    rw [htokens, hmatched, List.append_assoc, List.cons_append, onward]
  have behind_keyword : tokens.endless (before.length + 1) = next := by
    simp [TokenStream.endless, split]
  have matches_at (j : Nat) (hj : before.length ≤ j) :
      r.byKeyword[j]? = (keywords (keyword :: after))[j - before.length]? := by
    rw [hr, hmatched, keywords, List.map_append, List.getElem?_append_right (by simpa using hj),
      List.length_map]
    rfl
  refine ⟨next, rest, hnext, by simp [split],
    behind_keyword ▸ stands.line_of_last before.length ?_ fun j hj hjt => ?_⟩
  · rw [matches_at _ (Nat.le_refl _), Nat.sub_self]
    exact congrArg some (decide_eq_true hk)
  · obtain ⟨i, rfl⟩ := Nat.exists_eq_add_of_lt hj
    rw [matches_at _ (by omega), show before.length + i + 1 - before.length = i + 1 by omega] at hjt
    have later : true ∈ keywords after := List.mem_of_getElem? hjt
    obtain ⟨token, hmem, hkeyword⟩ := List.mem_map.1 later
    exact hafter token hmem (of_decide_eq_true hkeyword)

/-- Lines are counted from 1, so that the line is 0 only as long as no keyword is read. -/
theorem StandsAt.line_eq_zero_iff (stands : StandsAt tokens k r)
    (hr : r.byKeyword = keywords r.matched.toList) {behind : TokenStream}
    (htokens : tokens = r.matched.toList ++ r.lookahead :: behind)
    (hpositive : ∀ token ∈ tokens, 1 ≤ token.line) :
    r.line = 0 ↔ ∀ token ∈ r.matched.toList, token.kind ≠ .keyword := by
  constructor
  · intro zero token hmem hk
    obtain ⟨before, keyword, after, hmatched, hkeyword, hafter⟩ :=
      exists_last_keyword ⟨token, hmem, hk⟩
    obtain ⟨next, rest, -, hnext, hline⟩ :=
      stands.line_of_last_keyword hr htokens hmatched hkeyword hafter
    have positive := hpositive next hnext
    omega
  · intro none_matched
    refine stands.line_of_none fun hmem => ?_
    rw [hr] at hmem
    obtain ⟨token, hmem, hk⟩ := List.mem_map.1 hmem
    exact none_matched token hmem (of_decide_eq_true hk)

end Behind

/-- A fresh recognizer is given the tokens of a source. Whatever operations are done to it, and a
verdict is made of operations, its line never falls and never passes the line of the lookahead.

So the line of an error is not behind the token that the error names, which is a token of the
source. It is 0 if no keyword was read before that token; else it is the line of the token right
behind the last one, which is that token or one before it. -/
theorem line_of_scanned {source : String} {verbose : Bool} {tokens : TokenStream}
    (h : (Scanner.ofSource source verbose).tokens.result = .ok tokens) (label : String)
    (verbose' : Bool) :
    let fresh := ofTokens tokens label verbose'
    Steps True fresh (leaves recognize fresh) ∧
      (∀ r r', Steps True fresh r → Steps True r r' →
        r.line ≤ r'.line ∧ r'.line ≤ r'.lookahead.line) ∧
      ∀ stop r, recognize fresh = .error stop r →
        ∃ error found behind, stop = .refused (.fatal error) ∧ error.found? = some found ∧
          tokens = r.matched.toList ++ found :: behind ∧
          r.byKeyword = keywords r.matched.toList ∧
          error.located.line ≤ found.line ∧
          (error.located.line = 0 ↔ ∀ token ∈ r.matched.toList, token.kind ≠ .keyword) ∧
          ∀ before keyword after, r.matched.toList = before ++ keyword :: after →
            keyword.kind = .keyword → (∀ token ∈ after, token.kind ≠ .keyword) →
            ∃ next rest, after ++ [found] = next :: rest ∧ error.located.line = next.line := by
  intro fresh
  have yields := Scanner.tokens_eq_ok_iff.1 h
  have steps : Steps True fresh (leaves recognize fresh) := (Operates.recognize trivial).steps fresh
  have ordered : Ordered fresh := .ofTokens yields.lines_ascend
  refine ⟨steps, fun r r' hr hr' => ?_, fun stop r hr => ?_⟩
  · obtain ⟨ordered', hle⟩ := (ordered.steps hr).1.steps hr'
    exact ⟨hle, ordered'.line_le⟩
  · obtain ⟨error, w, d, rfl, hreads, -, hrejects⟩ := rejects_of_refused rfl hr
    obtain ⟨idle, -, refused⟩ := recognize_idle (r := fresh) rfl
    have line : error.located.line = r.line := refused _ _ hr
    rw [leaves_of_error hr] at idle steps
    have strides : Strides True fresh.begun _ := (asks_declarationLoop trivial).strides fresh.begun
    have byKeyword : r.byKeyword = keywords r.matched.toList := by
      rw [idle.byKeyword, strides.byKeyword rfl]
      exact congrArg (fun cursor => keywords cursor.matched) idle.cursor.symm
    obtain ⟨k, stands⟩ := (StandsAt.ofTokens tokens label verbose').steps steps
    obtain ⟨before, hbefore⟩ := yields.exists_eq_append_eof
    obtain ⟨behind, htokens⟩ := exists_behind hbefore hreads
    refine ⟨error, r.lookahead, behind, rfl, hrejects.found?_eq, htokens, byKeyword, ?_, ?_, ?_⟩
    · rw [line]
      exact (ordered.steps steps).1.line_le
    · rw [line]
      exact stands.line_eq_zero_iff byKeyword htokens yields.line_le
    · intro before keyword after hmatched hk hafter
      rw [line]
      obtain ⟨next, rest, hnext, -, hline⟩ :=
        stands.line_of_last_keyword byKeyword htokens hmatched hk hafter
      exact ⟨next, rest, hnext, hline⟩

/-- What is missing is missed on line 4, but the last keyword has its name on line 2. -/
theorem line_of_scanned_missing_name :
    let modifier : Token := ⟨.keyword .staticKw, 1⟩
    let keyword : Token := ⟨.keyword .varKw, 2⟩
    let name : Token := ⟨.identifier "a", 2⟩
    let comma : Token := ⟨.punctuation .comma, 2⟩
    let found : Token := ⟨.punctuation .semicolon, 4⟩
    let tokens : TokenStream := [modifier, keyword, name, comma, found, .eof 4]
    (Scanner.ofSource "static\nvar a,\n\n;" false).tokens.result = .ok tokens ∧
      ∃ error r, recognize (ofTokens tokens "a.sir" false) = .error (.refused (.fatal error)) r ∧
        r.matched.toList = [modifier, keyword, name, comma] ∧ error.found? = some found ∧
        error.located.line = 2 := by
  intro modifier keyword name comma found tokens
  have scanned : (Scanner.ofSource "static\nvar a,\n\n;" false).tokens.result = .ok tokens := by
    decide +kernel
  have run : (match recognize (ofTokens tokens "a.sir" false) with
      | .error _ r => some r.matched.toList
      | .ok _ _ => none) = some [modifier, keyword, name, comma] := by
    decide +kernel
  split at run
  · rename_i stop r h
    have hmatched := Option.some.inj run
    obtain ⟨-, -, refused⟩ := line_of_scanned scanned "a.sir" false
    obtain ⟨error, _, behind, rfl, hfound, htokens, -, -, -, last⟩ := refused _ _ h
    rw [hmatched] at htokens
    have htokens : [modifier, keyword, name, comma] ++ [found, .eof 4] = _ ++ _ := htokens
    obtain ⟨rfl, -⟩ := List.cons.inj (List.append_cancel_left htokens)
    obtain ⟨next, rest, hnext, hline⟩ :=
      last [modifier] keyword [name, comma] hmatched rfl (by decide)
    cases hnext
    exact ⟨scanned, error, r, h, hmatched, hfound, hline⟩
  · cases run

end Recognizer
end FrontEnd
