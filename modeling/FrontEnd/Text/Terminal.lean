import FrontEnd.Text.Quoted

/-!
# FrontEnd.Text.Terminal

Text that is safe to show on a terminal: no character in it can begin a control sequence, move
the cursor back or ring the bell.

* `isTerminalControl` — the characters kept from a terminal. Line breaks, tabs and the controls
  without such a use are not among them.
* `escapeTerminal`, `forTerminal` — a character and a text with these written out as codes.
* `not_isTerminalControl_of_mem_forTerminal` — none of them is left.
-/

namespace FrontEnd.Text

/-- Bell, backspace, form feed, escape and delete, and the controls from `U+0080` to
`U+009F`. -/
def isTerminalControl (c : Char) : Bool :=
  let n := c.toNat
  n == 0x07 || n == 0x08 || n == 0x0C || n == 0x1B || (0x7F ≤ n && n ≤ 0x9F)

/-- A control up to delete has a code of two digits; a later one has its digits in braces. -/
def escapeTerminal (c : Char) : List Char :=
  if isTerminalControl c then
    if c.toNat < 0x10 then ['\\', 'x', '0'] ++ hexDigits c.toNat
    else if c.toNat < 0x80 then ['\\', 'x'] ++ hexDigits c.toNat
    else ['\\', 'u', '\x7b'] ++ hexDigits c.toNat ++ ['\x7d']
  else [c]

def forTerminal (text : String) : String :=
  String.ofList (text.toList.flatMap escapeTerminal)

theorem toNat_lt_of_isTerminalControl {c : Char} (h : isTerminalControl c = true) :
    c.toNat < 0xA0 := by
  simp only [isTerminalControl, Bool.or_eq_true, Bool.and_eq_true, beq_iff_eq,
    decide_eq_true_eq] at h
  omega

/-- Every code point up to the last control, written out. -/
theorem escapeTerminal_range :
    (List.range 0xA0).all (fun n =>
      (escapeTerminal (Char.ofNat n)).all (!isTerminalControl ·)) = true := by
  decide +kernel

theorem not_isTerminalControl_of_mem_escapeTerminal {c d : Char}
    (h : d ∈ escapeTerminal c) : isTerminalControl d = false := by
  cases hc : isTerminalControl c with
  | true =>
    have all := List.all_eq_true.1 escapeTerminal_range c.toNat
      (List.mem_range.2 (toNat_lt_of_isTerminalControl hc))
    rw [Char.ofNat_toNat] at all
    simpa using List.all_eq_true.1 all d h
  | false =>
    simp only [escapeTerminal, hc, Bool.false_eq_true, if_false, List.mem_singleton] at h
    rw [h]
    exact hc

/-- Nothing is left in a text that a terminal would obey. -/
theorem not_isTerminalControl_of_mem_forTerminal {text : String} {d : Char}
    (h : d ∈ (forTerminal text).toList) : isTerminalControl d = false := by
  rw [forTerminal, String.toList_ofList] at h
  obtain ⟨c, _, hd⟩ := List.mem_flatMap.1 h
  exact not_isTerminalControl_of_mem_escapeTerminal hd

end FrontEnd.Text
