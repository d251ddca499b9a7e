import FrontEnd.Proofs.Recognizer.Acceptance
import FrontEnd.Proofs.Recognizer.Viable

/-!
# FrontEnd.Proofs.Recognizer.Rejection

Where a fresh recognizer stops, and whether its error is true.

* `Control.Rejects.found?_eq`, `Control.Rejects.not_viable`, … — what a refusal that is right at
  a place of the grammar says about the words that lead there.
* `Recognizer.over_ofTokens` — a fresh recognizer stands in front of its tokens.
* `Recognizer.recognize_error_truthful` — a refused stream is read up to the first token with
  which no program goes on, and what the error says was expected could have come there.
-/

namespace FrontEnd

namespace Control.Rejects

variable {c : Control} {token found : Token} {fault : SyntaxFault} {what : String}
  {w : List Terminal}

theorem found?_eq (h : c.Rejects token fault) : fault.found? = some token := by
  cases fault with
  | expected what found => exact congrArg some h.1
  | expectedEnd found => exact congrArg some h.1
  | poisoned => cases h

theorem not_viable (h : c.Rejects token fault) (hw : top.run w = some c) :
    ¬Viable (w ++ [token.terminal]) := by
  refine not_viable_of_step_eq_none hw h.step_eq_none ?_
  intro ht
  exact h.ne_top_of_eof ((Token.terminal_eq_kind_iff (by decide)).1 ht)

/-- Only where a declaration may begin, or nothing any more, the end of input is expected. -/
theorem derives_program (h : c.Rejects token (.expectedEnd found)) (hw : top.run w = some c) :
    Derives (.production .program) w := by
  obtain ⟨-, rfl, -, -⟩ := h
  exact derives_program_iff_run.2 hw

theorem viable_wanted (h : c.Rejects token (.expected what found)) (hw : top.run w = some c) :
    wanted what ≠ [] ∧ ∀ t ∈ wanted what, Viable (w ++ [t]) := by
  obtain ⟨-, -, -, hne, hwanted⟩ := h
  refine ⟨hne, fun t ht => ?_⟩
  obtain ⟨d, hd⟩ := Option.isSome_iff_exists.1 (hwanted t ht)
  refine viable_of_run (c := d) ?_
  rw [run_append, hw, Option.bind_some, run, hd]
  rfl

end Control.Rejects

namespace Recognizer

open Recog Cursor

theorem over_ofTokens {tokens : TokenStream} {label : String} {verbose : Bool} :
    (ofTokens tokens label verbose).cursor.Over tokens := by
  cases tokens with
  | nil => exact .inr ⟨rfl, rfl, rfl⟩
  | cons t rest => exact .inl rfl

/-- A fresh recognizer refuses for good, and names the token behind those it has consumed: the
next of the stream, or an end of input where there is none. A sentence can begin with what is
consumed, but not with that token behind it. Where the end of input was expected, what is
consumed is a whole program; where anything else was, it could have come there. -/
theorem recognize_error_truthful (tokens : TokenStream) (label : String) (verbose : Bool)
    {stop : Stop} {r : Recognizer}
    (h : recognize (ofTokens tokens label verbose) = .error stop r) :
    ∃ error found, stop = .refused (.fatal error) ∧ error.found? = some found ∧
      ((∃ rest, tokens = r.matched.toList ++ found :: rest) ∨
        tokens = r.matched.toList ∧ found.form = .eof) ∧
      Viable (r.matched.toList.map Token.terminal) ∧
      ¬Viable (r.matched.toList.map Token.terminal ++ [found.terminal]) ∧
      (error.located.error = .expectedEnd found →
        Derives (.production .program) (r.matched.toList.map Token.terminal)) ∧
      ∀ what, error.located.error = .expected what found →
        wanted what ≠ [] ∧
        ∀ t ∈ wanted what, Viable (r.matched.toList.map Token.terminal ++ [t]) := by
  have ends := ends_recognize (r := ofTokens tokens label verbose) rfl
  unfold Ends at ends
  rw [h] at ends
  match stop, ends with
  | .refused (.fatal error), ends =>
    obtain ⟨w, c, hreads, hrun, hrejects⟩ := ends
    have hmatched : r.matched.toList = w := hreads.matched
    rw [hmatched]
    refine ⟨error, r.lookahead, rfl, hrejects.found?_eq, ?_, viable_of_run hrun,
      hrejects.not_viable hrun, fun he => ?_, fun what he => ?_⟩
    · rcases hreads.stays_over over_ofTokens with htokens | ⟨htokens, -, heof⟩
      · exact .inl ⟨r.rest, htokens.trans (by rw [← hmatched]; rfl)⟩
      · exact .inr ⟨htokens.trans hmatched, heof⟩
    · rw [he] at hrejects
      exact hrejects.derives_program hrun
    · rw [he] at hrejects
      exact hrejects.viable_wanted hrun
  | .refused (.recoverable _), ends => exact ends.elim
  | .misuse, ends => exact ends.elim

/-- Behind a storage modifier only the two keywords can come, so a name is one token too many. -/
theorem recognize_error_truthful_static_name :
    let name : Token := ⟨.identifier "x", 2⟩
    let before : TokenStream := [⟨.keyword .varKw, 1⟩, ⟨.identifier "a", 1⟩,
      ⟨.punctuation .semicolon, 1⟩, ⟨.keyword .staticKw, 2⟩]
    let error : SyntaxError :=
      ⟨⟨.expected "variable or routine declaration after storage modifier" name, "a.sir", 2⟩,
        some ["program", "declaration"]⟩
    ∃ r, recognize (ofTokens (before ++ [name, .eof 2]) "a.sir" false) =
          .error (.refused (.fatal error)) r ∧
      r.matched.toList = before ∧
      Viable (before.map Token.terminal) ∧
      ¬Viable (before.map Token.terminal ++ [.kind .identifier]) ∧
      Viable (before.map Token.terminal ++ [.keyword .varKw]) ∧
      Viable (before.map Token.terminal ++ [.keyword .routineKw]) := by
  intro name before error
  have run : (match recognize (ofTokens (before ++ [name, .eof 2]) "a.sir" false) with
      | .error stop r => some (stop, r.matched.toList)
      | .ok _ _ => none) = some (.refused (.fatal error), before) := by
    decide +kernel
  split at run
  · rename_i stop r h
    obtain ⟨rfl, hmatched⟩ := Prod.mk.inj (Option.some.inj run)
    have truthful := recognize_error_truthful _ _ _ h
    rw [hmatched] at truthful
    obtain ⟨_, found, herror, hfound, -, hviable, hnot, -, hwanted⟩ := truthful
    cases herror
    cases hfound
    obtain ⟨-, hall⟩ := hwanted _ rfl
    exact ⟨r, h, hmatched, hviable, hnot, hall _ (by decide), hall _ (by decide)⟩
  · cases run

end Recognizer
end FrontEnd
