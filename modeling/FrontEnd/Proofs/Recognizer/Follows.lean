import FrontEnd.Proofs.Recognizer.Control
import FrontEnd.Proofs.Recognizer.Cursor
import FrontEnd.Proofs.Recognizer.Ends

/-!
# FrontEnd.Proofs.Recognizer.Follows

What it means that a computation on a recognizer keeps to the grammar, with one rule for each way
to build a computation.

* `wanted` — the terminals that the text of a refusal asks for.
* `Control.Rejects` — a refusal that is right at a place of the grammar: the token found cannot
  come there, and what the text asks for can.
* `Recog.follows` — the computation moves over tokens on which the grammar leads from `c` to a
  place as wanted; refused recoverably it has moved over none; refused fatally it stands where
  the refusal is right.
* `Recog.follows_bind`, `Recog.follows_repeatWhile`, … — the rules.
-/

namespace FrontEnd

theorem Token.terminal_eq_kind_iff {token : Token} {kind : TokenKind} (h : kind ≠ .keyword) :
    token.terminal = .kind kind ↔ token.kind = kind := by
  unfold terminal
  split
  · rename_i k hk
    simp [Token.kind, hk, Form.kind, h.symm]
  · simp [Token.kind]

theorem Token.isKeyword_iff_terminal {token : Token} {k : Keyword} :
    token.isKeyword k = true ↔ token.terminal = .keyword k := by
  unfold isKeyword terminal
  split
  · rename_i k' hk
    simp [hk]
  · rename_i hk
    simpa using hk k

/-- What the text of a refusal asks for. -/
def wanted : String → List Terminal
  | "constant expression" =>
    [.kind .null, .kind .number, .kind .string, .kind .identifier, .kind .bool]
  | "identifier" => [.kind .identifier]
  | "identifier after ','" => [.kind .identifier]
  | "routine name identifier" => [.kind .identifier]
  | "';' to terminate statement" => [.kind .semicolon]
  | "';' to end extern routine declaration" => [.kind .semicolon]
  | "argument list (or empty '()')" => [.kind .lParen]
  | "')' to close argument list" => [.kind .rParen]
  | "statement block" => [.kind .lBrace]
  | "closing curly brace '\x7d' to end block" => [.kind .rBrace]
  | "':' to end label declaration" => [.kind .colon]
  | "variable or routine declaration after storage modifier" =>
    [.keyword .varKw, .keyword .routineKw]
  | _ => []

namespace Control

theorem step_eq_none_iff {c : Control} {t : Terminal} :
    c.step t = none ↔ ∀ move ∈ c.moves, t ≠ move.1 := by
  simp [step, List.lookup_eq_none_iff]

/-- No place of the grammar waits for the end of input as if it were a token, and none for a
keyword without saying which. -/
theorem kind_of_step {c d : Control} {kind : TokenKind} (h : c.step (.kind kind) = some d) :
    kind ≠ .eof ∧ kind ≠ .keyword := by
  have special : ∀ move ∈ c.moves, move.1 ≠ .kind .eof ∧ move.1 ≠ .kind .keyword := by
    cases c with
    | modified s => simp [moves, declarationMoves]
    | routineBody s => cases s <;> simp [moves]
    | _ => simp [moves, declarationMoves]
  have hmove := special _ (step_eq_some_iff.1 h)
  exact ⟨fun he => hmove.1 (by rw [he]), fun hk => hmove.2 (by rw [hk])⟩

/-- Refused with this fault, the token cannot come at this place, and what the fault asks for
can: one of the terminals wanted, or the end of input. -/
def Rejects (c : Control) (token : Token) : SyntaxFault → Prop
  | .expected what found =>
    found = token ∧ c ≠ top ∧ c.step token.terminal = none ∧
      wanted what ≠ [] ∧ ∀ t ∈ wanted what, (c.step t).isSome = true
  | .expectedEnd found =>
    found = token ∧ c = top ∧ c.step token.terminal = none ∧ token.kind ≠ .eof
  | .poisoned => False

theorem Rejects.step_eq_none {c : Control} {token : Token} {fault : SyntaxFault}
    (h : c.Rejects token fault) : c.step token.terminal = none := by
  cases fault with
  | expected what found => exact h.2.2.1
  | expectedEnd found => exact h.2.2.1
  | poisoned => cases h

theorem Rejects.ne_top_of_eof {c : Control} {token : Token} {fault : SyntaxFault}
    (h : c.Rejects token fault) (he : token.kind = .eof) : c ≠ top := by
  cases fault with
  | expected what found => exact h.2.1
  | expectedEnd found => exact absurd he h.2.2.2
  | poisoned => cases h

end Control

namespace Recog

open Recognizer Cursor

/-- A word read, the place it leads to and the lookahead behind it. -/
abbrev Arrival := TokenStream → Control → Token → Prop

/-- A refusal of the lookahead that moves over nothing. -/
abbrev Refused := Token → SyntaxFault → Prop

def never : Refused := fun _ _ => False

/-- The refusal of a lookahead where the text expects something else. -/
def refuses (what : String) (unfit : Token → Prop) : Refused := fun token fault =>
  unfit token ∧ fault = .expected what token

/-- The computation follows the grammar from the place `c`. -/
def follows {α : Type} (c : Control) (r : Recognizer) (ok : α → Arrival) (no : Refused) :
    Post α where
  ok a r' := ∃ w d, r.cursor.Reads w r'.cursor ∧ c.run (w.map Token.terminal) = some d ∧
    ok a w d r'.lookahead
  recoverable e r' := r'.cursor = r.cursor ∧ no r.lookahead e.located.error
  fatal e r' := ∃ w d, r.cursor.Reads w r'.cursor ∧ c.run (w.map Token.terminal) = some d ∧
    d.Rejects r'.lookahead e.located.error

section Rules

variable {α β : Type} {body : Recog α} {r : Recognizer} {c d : Control} {ok : α → Arrival}
  {no : Refused}

theorem lookahead_of_cursor_eq {r' : Recognizer} (h : r'.cursor = r.cursor) :
    r'.lookahead = r.lookahead := congrArg (·.lookahead) h

theorem follows_mono {ok' : α → Arrival} {no' : Refused} (h : Ends body r (follows c r ok no))
    (hok : ∀ a w d t, ok a w d t → ok' a w d t)
    (hno : ∀ fault, no r.lookahead fault → no' r.lookahead fault) :
    Ends body r (follows c r ok' no') :=
  h.mono (fun _ _ ⟨w, d, hr, hd, h⟩ => ⟨w, d, hr, hd, hok _ _ _ _ h⟩)
    (fun _ _ ⟨hr, h⟩ => ⟨hr, hno _ h⟩) (fun _ _ h => h)

theorem follows_pure {a : α} (h : ok a [] c r.lookahead) :
    Ends (pure a) r (follows c r ok no) :=
  ends_pure.2 ⟨[], c, .refl, rfl, h⟩

/-- The second computation may refuse recoverably only if the first one moved over nothing. -/
theorem follows_bind {f : α → Recog β} {ok' : β → Arrival} {no' : Refused}
    (h : Ends body r (follows c r ok no))
    (hf : ∀ a w d r', ok a w d r'.lookahead → Ends (f a) r'
      (follows d r' (fun b v => ok' b (w ++ v)) (fun t fault => w = [] ∧ no' t fault)))
    (hno : ∀ fault, no r.lookahead fault → no' r.lookahead fault) :
    Ends (body >>= f) r (follows c r ok' no') := by
  rw [ends_bind]
  refine h.mono ?_ (fun _ _ ⟨hr, h⟩ => ⟨hr, hno _ h⟩) (fun _ _ h => h)
  intro a r₁ h
  obtain ⟨w, d, hr, hd, h⟩ := h
  refine (hf a w d r₁ h).mono ?_ ?_ ?_
  · intro b r₂ h
    obtain ⟨v, e, hr', he, h'⟩ := h
    exact ⟨w ++ v, e, hr.trans hr', by simp [Control.run_append, hd, he], h'⟩
  · intro e r₂ h
    obtain ⟨hr', rfl, h'⟩ := h
    have hc : r₁.cursor = r.cursor := hr.eq_of_nil
    rw [lookahead_of_cursor_eq hc] at h'
    exact ⟨hr'.trans hc, h'⟩
  · intro e r₂ h
    obtain ⟨v, e, hr', he, h'⟩ := h
    exact ⟨w ++ v, e, hr.trans hr', by simp [Control.run_append, hd, he], h'⟩

theorem follows_mono_never {ok' : α → Arrival} (h : Ends body r (follows c r ok never))
    (hok : ∀ a w d t, ok a w d t → ok' a w d t) : Ends body r (follows c r ok' no) :=
  follows_mono h hok fun _ h => h.elim

/-- A first computation that never refuses recoverably leaves the second one to do so. -/
theorem follows_bind_never {f : α → Recog β} {ok' : β → Arrival} {no' : Refused}
    (h : Ends body r (follows c r ok never))
    (hf : ∀ a w d r', ok a w d r'.lookahead → Ends (f a) r'
      (follows d r' (fun b v => ok' b (w ++ v)) (fun t fault => w = [] ∧ no' t fault))) :
    Ends (body >>= f) r (follows c r ok' no') :=
  follows_bind h hf fun _ h => h.elim

/-- Behind a commit point a refusal has to be right where it stands. -/
theorem follows_cut (h : Ends body r (follows c r ok no))
    (hno : ∀ fault, no r.lookahead fault → c.Rejects r.lookahead fault) :
    Ends (cut body) r (follows c r ok never) := by
  rw [ends_cut]
  refine h.mono (fun _ _ h => h) ?_ (fun _ _ h => h)
  intro e r' h
  obtain ⟨hr, h'⟩ := h
  have ht := lookahead_of_cursor_eq hr
  exact ⟨[], c, hr ▸ .refl, rfl, by rw [ht]; exact hno _ h'⟩

theorem follows_within {name : String}
    (h : Ends body (r.enter name) (follows c (r.enter name) ok no)) :
    Ends (within name body) r (follows c r ok no) :=
  ends_within.2 (h.mono (fun _ _ h => h) (fun _ _ h => h) (fun _ _ h => h))

theorem follows_attempt {name : String} {body : Recog Unit} {ok : Unit → Arrival}
    (h : Ends (within name body) r (follows c r ok no)) :
    Ends (attempt name body) r (follows c r
      (fun found w d t =>
        if found then ok () w d t else w = [] ∧ d = c ∧ t = r.lookahead ∧ ∃ f, no t f) never) := by
  refine ends_attempt.2 (h.mono ?_ ?_ (fun _ _ h => h))
  · intro _ r' h
    obtain ⟨w, d, hr, hd, h⟩ := h
    exact ⟨w, d, hr, hd, h⟩
  · intro e r' h
    obtain ⟨hr, h'⟩ := h
    refine ⟨matched_size_of_cursor_eq hr, [], c, hr ▸ .refl, rfl, ?_⟩
    rw [lookahead_of_cursor_eq hr]
    exact ⟨rfl, rfl, rfl, _, h'⟩

theorem reads_of_step {s : Recognizer} (hd : c.step r.lookahead.terminal = some d)
    (hr : s.cursor = r.cursor.advance) : r.cursor.Reads [r.lookahead] s.cursor ∧
      c.run ([r.lookahead].map Token.terminal) = some d := by
  have he : r.cursor.lookahead.kind ≠ .eof := by
    intro he
    rw [cursor_lookahead] at he
    rw [(Token.terminal_eq_kind_iff (by decide)).2 he] at hd
    exact (Control.kind_of_step hd).1 rfl
  exact ⟨hr ▸ .single he, by simp [Control.run, hd]⟩

theorem follows_matchKind {kind : TokenKind} (hd : c.step (.kind kind) = some d) :
    Ends (matchKind kind) r (follows c r (fun found w e t =>
      if found then w ≠ [] ∧ e = d
      else w = [] ∧ e = c ∧ t = r.lookahead ∧ t.kind ≠ kind) never) := by
  refine ends_matchKind.2 ⟨fun h => ?_, fun h => ?_⟩
  · have ht := (Token.terminal_eq_kind_iff (Control.kind_of_step hd).2).2 h
    obtain ⟨hr, hw⟩ := reads_of_step (s := (r.announce (.matchedToken r.lookahead)).consume)
      (ht ▸ hd) (by simp)
    exact ⟨_, d, hr, hw, by simp⟩
  · exact ⟨[], c, .refl, rfl, rfl, rfl, rfl, h⟩

theorem follows_matchKeyword {k : Keyword} (hd : c.step (.keyword k) = some d) :
    Ends (matchKeyword k) r (follows c r (fun found w e t =>
      if found then w ≠ [] ∧ e = d
      else w = [] ∧ e = c ∧ t = r.lookahead ∧ t.terminal ≠ .keyword k) never) := by
  refine ends_matchKeyword.2 ⟨fun h => ?_, fun h => ?_⟩
  · have ht := Token.isKeyword_iff_terminal.1 h
    obtain ⟨hr, hw⟩ := reads_of_step (s := (r.announce (.matchedKeyword k)).consume.track)
      (ht ▸ hd) (by simp)
    exact ⟨_, d, hr, hw, by simp⟩
  · refine ⟨[], c, .refl, rfl, rfl, rfl, rfl, fun ht => ?_⟩
    have : r.lookahead.isKeyword k = true := Token.isKeyword_iff_terminal.2 ht
    rw [h] at this
    cases this

theorem follows_refuse {what : String} (h : no r.lookahead (.expected what r.lookahead)) :
    Ends (refuse what : Recog α) r (follows c r ok no) := ends_refuse.2 ⟨rfl, h⟩

theorem follows_expect {kind : TokenKind} {what : String}
    (hd : c.step (.kind kind) = some d) :
    Ends (expect kind what) r (follows c r (fun _ w e _ => w ≠ [] ∧ e = d)
      (refuses what (·.kind ≠ kind))) := by
  refine follows_bind_never (follows_matchKind hd) ?_
  intro found w e r' h
  cases found with
  | false =>
    obtain ⟨rfl, rfl, -, ht⟩ := h
    exact follows_refuse ⟨rfl, ht, rfl⟩
  | true => exact follows_pure (by simpa using h)

theorem follows_expectKeyword {k : Keyword} {what : String}
    (hd : c.step (.keyword k) = some d) :
    Ends (expectKeyword k what) r (follows c r (fun _ w e _ => w ≠ [] ∧ e = d)
      (refuses what (·.terminal ≠ .keyword k))) := by
  refine follows_bind_never (follows_matchKeyword hd) ?_
  intro found w e r' h
  cases found with
  | false =>
    obtain ⟨rfl, rfl, -, ht⟩ := h
    exact follows_refuse ⟨rfl, ht, rfl⟩
  | true => exact follows_pure (by simpa using h)

/-- The loop. Its invariant is about the place reached and the lookahead there. -/
theorem follows_repeatWhile {step : Recog Bool} (inv ok : Control → Token → Prop)
    (hstep : ∀ c r, inv c r.lookahead → Ends step r (follows c r
      (fun again w d t => if again then w ≠ [] ∧ inv d t else ok d t) never))
    (h : inv c r.lookahead) :
    Ends (repeatWhile step) r (follows c r (fun _ _ d t => ok d t) never) := by
  refine ends_repeatWhile (fun r' => ∃ w d, r.cursor.Reads w r'.cursor ∧
    c.run (w.map Token.terminal) = some d ∧ inv d r'.lookahead) ?_ ⟨[], c, .refl, rfl, h⟩
  intro r₁ h
  obtain ⟨w, d, hr, hd, hinv⟩ := h
  refine (hstep d r₁ hinv).mono ?_ (fun _ _ h => h.2.elim) ?_
  · rintro (_ | _) r₂ ⟨v, e, hr', he, h'⟩
    · exact ⟨w ++ v, e, hr.trans hr', by simp [Control.run_append, hd, he], h'⟩
    · exact ⟨⟨w ++ v, e, hr.trans hr', by simp [Control.run_append, hd, he], h'.2⟩,
        hr'.pending_lt h'.1⟩
  · intro e r₂ h
    obtain ⟨v, e, hr', he, h'⟩ := h
    exact ⟨w ++ v, e, hr.trans hr', by simp [Control.run_append, hd, he], h'⟩

end Rules

end Recog

end FrontEnd
