import FrontEnd.Recognizer.Basic

/-!
# FrontEnd.Proofs.Recognizer.Cursor

The part of a recognizer that moves over the tokens.

* `Cursor` — the tokens consumed, the lookahead and the tokens behind it; `Recognizer.cursor`.
  Of the operations on a recognizer only `consume` moves it, and it does so by `Cursor.advance`.
* `Cursor.ahead` — the tokens not consumed yet, up to the first end of input.
* `Cursor.Over` — the cursor stands somewhere in these tokens, or behind the last of them.
* `Cursor.Reads` — a cursor moved over some tokens, none of them an end of input: they go from
  the tokens ahead to the tokens consumed (`Reads.ahead`, `Reads.matched`), and the cursor still
  stands in the same tokens (`Reads.stays_over`).
-/

namespace FrontEnd

@[simp] theorem Token.kind_eof {line : Nat} : (Token.eof line).kind = .eof := rfl

/-- The tokens in front of the first end of input. -/
def TokenStream.beforeEof (tokens : TokenStream) : TokenStream :=
  tokens.takeWhile (·.kind ≠ .eof)

structure Cursor where
  matched : TokenStream
  lookahead : Token
  rest : TokenStream

namespace Cursor

def advance (c : Cursor) : Cursor :=
  ⟨c.matched ++ [c.lookahead], c.rest.headD (Token.eof c.lookahead.line), c.rest.tail⟩

def ahead (c : Cursor) : TokenStream := TokenStream.beforeEof (c.lookahead :: c.rest)

def pending (c : Cursor) : Nat := c.rest.length + if c.lookahead.kind = .eof then 0 else 1

theorem ahead_of_eof {c : Cursor} (h : c.lookahead.kind = .eof) : c.ahead = [] := by
  simp [ahead, TokenStream.beforeEof, h]

theorem ahead_advance {c : Cursor} (h : c.lookahead.kind ≠ .eof) :
    c.ahead = c.lookahead :: c.advance.ahead := by
  obtain ⟨matched, lookahead, rest⟩ := c
  have hl : lookahead.kind ≠ .eof := h
  cases rest with
  | nil => simp [ahead, advance, TokenStream.beforeEof, hl]
  | cons t rest => simp [ahead, advance, TokenStream.beforeEof, hl]

theorem pending_advance_lt {c : Cursor} (h : c.lookahead.kind ≠ .eof) :
    c.advance.pending < c.pending := by
  obtain ⟨matched, lookahead, rest⟩ := c
  have hl : lookahead.kind ≠ .eof := h
  cases rest with
  | nil => simp [pending, advance, hl]
  | cons t rest =>
    by_cases ht : t.kind = .eof
    · simp only [pending, advance, List.headD_cons, List.tail_cons, List.length_cons, hl, ht,
        if_true, if_false]
      omega
    · simp [pending, advance, hl, ht]

/-- What is consumed are the first of these tokens, and the lookahead is the next one, or else an
end of input behind the last. -/
def Over (tokens : TokenStream) (c : Cursor) : Prop :=
  tokens = c.matched ++ c.lookahead :: c.rest ∨
    tokens = c.matched ∧ c.rest = [] ∧ c.lookahead.form = .eof

theorem Over.advance {tokens : TokenStream} {c : Cursor} (h : c.Over tokens)
    (hl : c.lookahead.kind ≠ .eof) : c.advance.Over tokens := by
  obtain ⟨matched, lookahead, rest⟩ := c
  rcases h with rfl | ⟨-, -, heof⟩
  · cases rest with
    | nil => exact .inr ⟨rfl, rfl, rfl⟩
    | cons t rest => exact .inl (by simp [Cursor.advance])
  · exact absurd (congrArg Token.Form.kind heof) hl

/-- The second cursor is the first one moved over the tokens. -/
inductive Reads : Cursor → TokenStream → Cursor → Prop where
  | refl {c : Cursor} : Reads c [] c
  | next {c d : Cursor} {w : TokenStream} :
      c.lookahead.kind ≠ .eof → Reads c.advance w d → Reads c (c.lookahead :: w) d

namespace Reads

variable {c d e : Cursor} {u v w : TokenStream}

theorem single (h : c.lookahead.kind ≠ .eof) : Reads c [c.lookahead] c.advance := .next h .refl

theorem eq_of_nil (h : Reads c [] d) : d = c := by
  cases h
  rfl

/-- At an end of input nothing is read. -/
theorem of_eof (h : Reads c w d) (he : c.lookahead.kind = .eof) : w = [] ∧ d = c := by
  cases h with
  | refl => exact ⟨rfl, rfl⟩
  | next hl => exact absurd he hl

theorem trans (h₁ : Reads c u d) (h₂ : Reads d v e) : Reads c (u ++ v) e := by
  induction h₁ with
  | refl => exact h₂
  | next hl _ ih => exact .next hl (ih h₂)

theorem matched (h : Reads c w d) : d.matched = c.matched ++ w := by
  induction h with
  | refl => simp
  | next _ _ ih => rw [ih, advance, List.append_assoc]; rfl

/-- What is read on the way is told by its two ends. -/
theorem unique (h : Reads c v d) (h' : Reads c w d) : v = w :=
  List.append_cancel_left (h.matched.symm.trans h'.matched)

/-- The lookahead is the next token to be read. -/
theorem head?_eq (h : Reads c w d) : (w ++ [d.lookahead]).head? = some c.lookahead := by
  cases h <;> rfl

theorem ahead (h : Reads c w d) : c.ahead = w ++ d.ahead := by
  induction h with
  | refl => rfl
  | next hl _ ih => rw [ahead_advance hl, ih]; rfl

theorem stays_over {tokens : TokenStream} (h : Reads c w d) (hc : c.Over tokens) :
    d.Over tokens := by
  induction h with
  | refl => exact hc
  | next hl _ ih => exact ih (hc.advance hl)

theorem pending_le (h : Reads c w d) : d.pending ≤ c.pending := by
  induction h with
  | refl => exact Nat.le_refl _
  | next hl _ ih => exact Nat.le_trans ih (Nat.le_of_lt (pending_advance_lt hl))

theorem pending_lt (h : Reads c w d) (hw : w ≠ []) : d.pending < c.pending := by
  cases h with
  | refl => exact absurd rfl hw
  | next hl h => exact Nat.lt_of_le_of_lt h.pending_le (pending_advance_lt hl)

end Reads

end Cursor

namespace Recognizer

variable {r : Recognizer}

def cursor (r : Recognizer) : Cursor := ⟨r.matched.toList, r.lookahead, r.rest⟩

theorem pending_eq_cursor : r.pending = r.cursor.pending := rfl

@[simp] theorem cursor_lookahead : r.cursor.lookahead = r.lookahead := rfl

@[simp] theorem cursor_note {level : Level} {event : RecognizerEvent} :
    (r.note level event).cursor = r.cursor := rfl

@[simp] theorem cursor_announce {event : RecognizerEvent} :
    (r.announce event).cursor = r.cursor := rfl

@[simp] theorem cursor_enter {name : String} : (r.enter name).cursor = r.cursor := rfl

@[simp] theorem cursor_leave {name : String} : (r.leave name).cursor = r.cursor := rfl

@[simp] theorem cursor_track : r.track.cursor = r.cursor := rfl

@[simp] theorem cursor_consume : r.consume.cursor = r.cursor.advance := by
  simp [cursor, consume, Cursor.advance]

theorem matchedText_eq_cursor :
    r.matchedText = String.join (r.cursor.matched.map fun token => token.text ++ " ") := rfl

theorem matched_size_of_cursor_eq {r' : Recognizer} (h : r'.cursor = r.cursor) :
    r'.matched.size = r.matched.size := by
  have := congrArg (·.matched.length) h
  simpa [cursor] using this

end Recognizer

end FrontEnd
