import FrontEnd.Proofs.Recognizer.Productions

/-!
# FrontEnd.Proofs.Recognizer.Acceptance

The verdict of a fresh recognizer.

* `Recognizer.ends_recognize` — accepted, it has read everything up to the end of input and the
  grammar leads back to the top; refused, it stands where the refusal is right.
* `Recognizer.reads_of_accepted`, `Recognizer.rejects_of_refused` — the same for a verdict given.
* `Recognizer.recognize_ok_iff_derives` — it accepts exactly the programs of the grammar, and then
  the matched text is that of the whole program.
-/

namespace FrontEnd
namespace Recognizer

open Recog Cursor

variable {tokens : TokenStream} {label : String} {verbose : Bool}

@[simp] theorem cursor_ofTokens : (ofTokens tokens label verbose).cursor =
    ⟨[], tokens.headD (Token.eof 0), tokens.tail⟩ := rfl

theorem ahead_ofTokens : (ofTokens tokens label verbose).cursor.ahead = tokens.beforeEof := by
  cases tokens <;> simp [ahead, TokenStream.beforeEof]

theorem ends_recognize {r : Recognizer} (h : r.poisoned = false) :
    Ends recognize r
      ⟨fun _ r' => ∃ w, r.cursor.Reads w r'.cursor ∧
          Control.top.run (w.map Token.terminal) = some .top ∧ r'.lookahead.kind = .eof,
        fun _ _ => False,
        fun e r' => ∃ w d, r.cursor.Reads w r'.cursor ∧
          Control.top.run (w.map Token.terminal) = some d ∧
          d.Rejects r'.lookahead e.located.error⟩ := by
  have hp : Ends (within "program" Grammar.program) (r.note .debug (.recognizing r.file)) _ :=
    follows_within follows_program
  unfold Ends recognize
  rw [h]
  unfold Ends at hp
  cases hs : within "program" Grammar.program (r.note .debug (.recognizing r.file)) with
  | ok a r' =>
    rw [hs] at hp
    obtain ⟨w, d, hr, hw, rfl, he⟩ := hp
    exact ⟨w, hr, hw, he⟩
  | error stop r' =>
    rw [hs] at hp
    cases stop with
    | refused refusal => cases refusal with
      | recoverable e => exact hp.2
      | fatal e => exact hp
    | misuse => exact hp

theorem reads_of_accepted {r r' : Recognizer} (hp : r.poisoned = false)
    (h : recognize r = .ok () r') :
    ∃ w, r.cursor.Reads w r'.cursor ∧ Control.top.run (w.map Token.terminal) = some .top ∧
      r'.lookahead.kind = .eof := by
  have ends := ends_recognize hp
  unfold Ends at ends
  rwa [h] at ends

/-- A verdict that refuses does so for good, where it is right. -/
theorem rejects_of_refused {r r' : Recognizer} {stop : Stop} (hp : r.poisoned = false)
    (h : recognize r = .error stop r') :
    ∃ error w d, stop = .refused (.fatal error) ∧ r.cursor.Reads w r'.cursor ∧
      Control.top.run (w.map Token.terminal) = some d ∧
      d.Rejects r'.lookahead error.located.error := by
  have ends := ends_recognize hp
  unfold Ends at ends
  rw [h] at ends
  match stop, ends with
  | .refused (.fatal error), ends =>
    obtain ⟨w, d, hreads, hrun, hrejects⟩ := ends
    exact ⟨error, w, d, rfl, hreads, hrun, hrejects⟩
  | .refused (.recoverable _), ends => exact ends.elim
  | .misuse, ends => exact ends.elim

/-- The tokens read, and what is ahead where the reading stopped, are all there are. -/
theorem beforeEof_of_reads {r' : Recognizer} {w : TokenStream}
    (h : (ofTokens tokens label verbose).cursor.Reads w r'.cursor) :
    tokens.beforeEof = w ++ r'.cursor.ahead := by
  rw [← h.ahead, ahead_ofTokens]

/-- Where a refusal is right the tokens do not lead back to the top. -/
theorem run_ne_top_of_rejects {w : TokenStream} {c : Cursor} {d : Control} {fault : SyntaxFault}
    (hw : Control.top.run (w.map Token.terminal) = some d) (hd : d.Rejects c.lookahead fault) :
    Control.top.run ((w ++ c.ahead).map Token.terminal) ≠ some .top := by
  rw [List.map_append, Control.run_append, hw, Option.bind_some]
  by_cases he : c.lookahead.kind = .eof
  · rw [ahead_of_eof he]
    intro h
    exact hd.ne_top_of_eof he (Option.some.inj h)
  · rw [ahead_advance he, List.map_cons, Control.run, hd.step_eq_none]
    intro h
    cases h

/-- A fresh recognizer accepts exactly the programs of the grammar among the tokens in front of
the first end of input. It then stands at an end of input, and its matched text is the text of
all these tokens, each with a blank behind it. -/
theorem recognize_ok_iff_derives (tokens : TokenStream) (label : String) (verbose : Bool) :
    ((∃ r', recognize (ofTokens tokens label verbose) = .ok () r') ↔
      Derives (.production .program) (tokens.beforeEof.map Token.terminal)) ∧
    ∀ r', recognize (ofTokens tokens label verbose) = .ok () r' →
      r'.lookahead.kind = .eof ∧
      r'.matchedText = String.join (tokens.beforeEof.map fun token => token.text ++ " ") := by
  have h := ends_recognize (r := ofTokens tokens label verbose) rfl
  rw [derives_program_iff_run]
  unfold Ends at h
  cases hs : recognize (ofTokens tokens label verbose) with
  | ok a r' =>
    rw [hs] at h
    obtain ⟨w, hr, hw, he⟩ := h
    have hb : tokens.beforeEof = w := by
      rw [beforeEof_of_reads hr, ahead_of_eof he, List.append_nil]
    rw [hb]
    refine ⟨⟨fun _ => hw, fun _ => ⟨r', rfl⟩⟩, ?_⟩
    intro _ h
    cases h
    exact ⟨he, by rw [matchedText_eq_cursor, hr.matched]; rfl⟩
  | error stop r' =>
    rw [hs] at h
    refine ⟨⟨by rintro ⟨_, ⟨⟩⟩, fun ht => ?_⟩, by rintro _ ⟨⟩⟩
    cases stop with
    | refused refusal => cases refusal with
      | recoverable e => exact h.elim
      | fatal e =>
        obtain ⟨w, d, hr, hw, hd⟩ := h
        rw [beforeEof_of_reads hr] at ht
        exact absurd ht (run_ne_top_of_rejects hw hd)
    | misuse => exact h.elim

end Recognizer
end FrontEnd
