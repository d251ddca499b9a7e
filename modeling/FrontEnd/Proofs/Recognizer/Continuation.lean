import FrontEnd.Proofs.Recognizer.Prefix
import FrontEnd.Proofs.Scan.Concatenation

/-!
# FrontEnd.Proofs.Recognizer.Continuation

A program read behind another one.

* `SyntaxError.lowered` — an error further down, reported on another line.
* `Recognizer.Below` — a recognizer has the tokens of another one, further down, and has consumed
  more. Its line is the other's, further down, from the first keyword on.
* `Recognizer.recognize_continues` — behind a program, tokens further down are recognized as they
  are by themselves.
-/

namespace FrontEnd

/-- The fault with its token so many lines further down. -/
def SyntaxFault.lowered (lines : Nat) : SyntaxFault → SyntaxFault
  | expected what found => expected what (found.lowered lines)
  | expectedEnd found => expectedEnd (found.lowered lines)
  | poisoned => poisoned

/-- The error with its token so many lines further down, reported on the given line. -/
def SyntaxError.lowered (lines line : Nat) (error : SyntaxError) : SyntaxError :=
  ⟨⟨error.located.error.lowered lines, error.located.file, line⟩, error.path⟩

theorem Token.terminal_lowered {token : Token} {lines : Nat} :
    (token.lowered lines).terminal = token.terminal := rfl

namespace Recognizer

open Recog

/-- The second recognizer has the tokens of the first one so many lines further down, and has
consumed so many more. Before the first one has matched a keyword, on line 0, the second one is on
the line given. -/
structure Below (lines line size : Nat) (r s : Recognizer) : Prop where
  lookahead : s.lookahead = r.lookahead.lowered lines
  rest : s.rest = r.rest.map (·.lowered lines)
  file : s.file = r.file
  nesting : s.nesting = r.nesting
  size : s.matched.size = r.matched.size + size
  line : true ∈ r.byKeyword ∧ s.line = r.line + lines ∨
    true ∉ r.byKeyword ∧ r.line = 0 ∧ s.line = line

namespace Below

variable {lines line size : Nat} {r s : Recognizer}

theorem complain (h : Below lines line size r s) (complaint : Complaint) (path : List String) :
    s.complain complaint path = (r.complain complaint path).lowered lines s.line := by
  cases complaint <;>
    simp only [Recognizer.complain, Complaint.about, SyntaxError.lowered, SyntaxFault.lowered,
      h.lookahead, h.file]

theorem note {level level' : Level} {event event' : RecognizerEvent}
    (h : Below lines line size r s) (he : event.byKeyword? = none) :
    Below lines line size (r.note level event) (s.note level' event') := by
  refine ⟨h.lookahead, h.rest, h.file, h.nesting, h.size, ?_⟩
  rw [byKeyword_note, he, Option.toList_none, List.append_nil]
  exact h.line

theorem nest (change : List String → List String) (h : Below lines line size r s) :
    Below lines line size { r with nesting := change r.nesting }
      { s with nesting := change s.nesting } :=
  ⟨h.lookahead, h.rest, h.file, congrArg change h.nesting, h.size, h.line⟩

theorem poison (h : Below lines line size r s) :
    Below lines line size { r with poisoned := true } { s with poisoned := true } :=
  ⟨h.lookahead, h.rest, h.file, h.nesting, h.size, h.line⟩

theorem pending (h : Below lines line size r s) : s.pending = r.pending := by
  rw [Recognizer.pending, h.lookahead, h.rest, List.length_map]
  rfl

/-- Both go on to the next token, or to the end of input on the line of the last one. -/
theorem consume (event event' : RecognizerEvent) {keyword : Bool} (h : Below lines line size r s)
    (he : event.byKeyword? = some keyword) :
    let r' := (r.announce event).consume
    let s' := (s.announce event').consume
    s'.lookahead = r'.lookahead.lowered lines ∧ s'.rest = r'.rest.map (·.lowered lines) ∧
      s'.matched.size = r'.matched.size + size ∧ r'.byKeyword = r.byKeyword ++ [keyword] := by
  intro r' s'
  refine ⟨?_, ?_, ?_, ?_⟩
  · show s.rest.headD (Token.eof s.lookahead.line) =
      (r.rest.headD (Token.eof r.lookahead.line)).lowered lines
    rw [h.rest, h.lookahead]
    cases r.rest <;> rfl
  · exact (congrArg List.tail h.rest).trans List.map_tail.symm
  · simp [r', s', Recognizer.consume, announce, Recognizer.note, h.size, Nat.add_right_comm]
  · exact byKeyword_announce.trans (by rw [he]; rfl)

theorem simulation : Simulation (Below lines line size) (fun _ => False) where
  nesting h := h.nesting
  terminal h _ := by rw [h.lookahead, Token.terminal_lowered]
  takeToken {r s} h _ := by
    obtain ⟨lookahead, rest, matched, byKeyword⟩ :=
      h.consume (.matchedToken r.lookahead) (.matchedToken s.lookahead) rfl
    refine ⟨lookahead, rest, h.file, h.nesting, matched, ?_⟩
    rw [byKeyword]
    rcases h.line with ⟨hk, hl⟩ | ⟨hk, hzero, hl⟩
    · exact .inl ⟨List.mem_append_left _ hk, hl⟩
    · exact .inr ⟨by simpa using hk, hzero, hl⟩
  takeKeyword {r s} k h _ := by
    obtain ⟨lookahead, rest, matched, byKeyword⟩ :=
      h.consume (.matchedKeyword k) (.matchedKeyword k) rfl
    refine ⟨lookahead, rest, h.file, h.nesting, matched, .inl ⟨?_, congrArg Token.line lookahead⟩⟩
    show true ∈ (r.announce (.matchedKeyword k)).consume.byKeyword
    rw [byKeyword]
    exact List.mem_append_right _ List.mem_cons_self
  rejectToken _ h := h.note rfl
  rejectKeyword _ h := h.note rfl
  report _ _ h := h.note rfl
  enter name h := (h.note rfl).nest (name :: ·)
  leave _ h := (h.nest List.tail).note rfl
  size h h' := by rw [h.size, h'.size]; omega
  pending h h' _ _ := by rw [h.pending, h'.pending]
  spent h _ := h

end Below

/-- The recognizer as a verdict has it read a program. -/
def begun (r : Recognizer) : Recognizer := (r.note .debug (.recognizing r.file)).enter "program"

/-- A verdict on two recognizers that read a program alike. -/
theorem alike_recognize {rel : Recognizer → Recognizer → Prop} {spent : Recognizer → Prop}
    {r s : Recognizer} (sim : Simulation rel spent) (hr : r.poisoned = false)
    (hs : s.poisoned = false)
    (h : Alike rel (Grammar.program r.begun) (Grammar.program s.begun))
    (accepted : ∀ {r s}, rel r s →
      rel (r.note .debug (.accepted r.file)) (s.note .debug (.accepted s.file)))
    (rejected : ∀ r s refusal refusal', rel r s →
      rel { r.note .debug (.rejected r.file refusal) with poisoned := true }
        { s.note .debug (.rejected s.file refusal') with poisoned := true }) :
    Alike rel (recognize r) (recognize s) := by
  have closed : Alike rel
      (within "program" Grammar.program (r.note .debug (.recognizing r.file)))
      (within "program" Grammar.program (s.note .debug (.recognizing s.file))) :=
    Alike.within h (sim.leave "program")
  unfold recognize
  rw [hr, hs]
  simp only [Bool.false_eq_true, if_false]
  generalize within "program" Grammar.program (r.note .debug (.recognizing r.file)) = x at closed ⊢
  generalize within "program" Grammar.program (s.note .debug (.recognizing s.file)) = y at closed ⊢
  cases closed with
  | ok a h => exact .ok () (accepted h)
  | recoverable complaint path h => exact .recoverable complaint path (rejected _ _ _ _ h)
  | fatal complaint path h => exact .fatal complaint path (rejected _ _ _ _ h)
  | misuse h => exact .misuse h

/-- What is accepted has been read as a program. -/
theorem recognize_eq_ok_iff {r r' : Recognizer} : recognize r = .ok () r' ↔
    r.poisoned = false ∧ ∃ r₁, Grammar.program r.begun = .ok () r₁ ∧
      r' = (r₁.leave "program").note .debug (.accepted r₁.file) := by
  unfold recognize
  cases hp : r.poisoned with
  | true => exact ⟨nofun, nofun⟩
  | false =>
    rw [if_neg Bool.false_ne_true]
    constructor
    · intro h
      cases hw : within "program" Grammar.program (r.note .debug (.recognizing r.file)) with
      | ok a r₂ =>
        rw [hw] at h
        obtain ⟨r₁, hr₁, rfl⟩ := within_eq_ok_iff.1 hw
        cases h
        exact ⟨rfl, r₁, hr₁, rfl⟩
      | error stop r₂ =>
        rw [hw] at h
        cases stop <;> cases h
    · rintro ⟨-, r₁, hr₁, rfl⟩
      rw [within_eq_ok_iff.2 ⟨r₁, hr₁, rfl⟩]
      rfl

section Streams

variable {before second later : TokenStream} {last : Nat} {label : String} {verbose : Bool}

theorem Ahead.ofStreams (hbefore : ∀ t ∈ before, t.kind ≠ .eof) (hlater : later ≠ []) :
    Ahead later (ofTokens (before ++ [Token.eof last]) label verbose)
      (ofTokens (before ++ later) label verbose) := by
  have inFront {tokens : TokenStream} (h : tokens ≠ []) :
      (ofTokens tokens label verbose).lookahead :: (ofTokens tokens label verbose).rest =
        tokens := by
    cases tokens with
    | nil => exact absurd rfl h
    | cons => rfl
  exact ⟨⟨before, last, hbefore, inFront (by simp), inFront (by simp [hlater])⟩, rfl, rfl, rfl, rfl⟩

theorem Ahead.begun {r s : Recognizer} (h : Ahead later r s) : Ahead later r.begun s.begun :=
  h.note.enter "program"

/-- A recognizer in front of tokens further down, with nothing but the program open. -/
theorem Below.begun {lines : Nat} {s : Recognizer}
    (hs : s.lookahead :: s.rest = second.map (·.lowered lines))
    (hfile : s.file = label) (hnesting : s.nesting = ["program"]) :
    Below lines s.line s.matched.size (ofTokens second label verbose).begun s := by
  cases second with
  | nil => cases hs
  | cons t second =>
    obtain ⟨lookahead, rest⟩ := List.cons.inj hs
    exact ⟨lookahead, rest, hfile, hnesting, (Nat.zero_add _).symm, .inr ⟨nofun, rfl, rfl⟩⟩

/-- Behind a program that is accepted, tokens further down are recognized as they are by
themselves, but that the line is the one left by the program up to the first keyword. -/
theorem recognize_continues (lines : Nat) {left : Recognizer}
    (hbefore : ∀ t ∈ before, t.kind ≠ .eof) (hsecond : second ≠ [])
    (h : recognize (ofTokens (before ++ [Token.eof last]) label verbose) = .ok () left) :
    Alike (Below lines left.line left.matched.size) (recognize (ofTokens second label verbose))
      (recognize (ofTokens (before ++ second.map (·.lowered lines)) label verbose)) := by
  have hlater : second.map (·.lowered lines) ≠ [] := by simpa using hsecond
  obtain ⟨-, r, hr, rfl⟩ := recognize_eq_ok_iff.1 h
  obtain ⟨s, hs, ahead, htokens⟩ :=
    (Ahead.ofStreams hbefore hlater).begun.program hlater hr
  have hfile : r.file = label :=
    (leaves_of_ok hr ▸ (blind_program.steps _)).file
  have hnesting : r.nesting = ["program"] :=
    (blind_program.restores _).of_ok hr
  have below : Below lines s.line s.matched.size (ofTokens second label verbose).begun s :=
    .begun htokens (ahead.file.trans hfile) (ahead.nesting.trans hnesting)
  rw [ahead.line, ahead.size] at below
  -- the reports after the program leave its line and what it consumed
  show Alike (Below lines r.line r.matched.size) _ _
  refine alike_recognize Below.simulation rfl rfl ?_ (·.note rfl) fun r s refusal refusal' h => ?_
  · rw [hs]
    exact blind_program.alike Below.simulation below id
  · have noted : Below lines _ _
        (r.note .debug (.rejected r.file refusal)) (s.note .debug (.rejected s.file refusal')) :=
      h.note rfl
    exact noted.poison

end Streams

end Recognizer
end FrontEnd
