import FrontEnd.Literal.Basic
import FrontEnd.Proofs.Scan.Scannable

/-!
# FrontEnd.Proofs.Literal.Numeral

The numbers that the scanner yields, read as integers and as decimals.

* `Integer.valueFrom` — the value of digits that are read on after others; it never falls
  (`Integer.le_valueFrom`).
* `Integer.magnitude_append` — so digits are refused, at one or another of them, exactly if the
  value of all of them passes the limit, whatever comes behind.
* `IsNumber.exists_parts` — the digits in front of the point, and what is behind them.
* `Literal.toInteger_number`, `Literal.toDecimal_number` — a number read.
* `Literal.read_scanned_number` — a number token of any source.
-/

namespace FrontEnd

open Dispatch
open Decimal (digitsValue)

theorem ne_of_isDigit {c d : Char} (hc : c.isDigit = true) (hd : d.isDigit = false) : c ≠ d := by
  rintro rfl
  rw [hc] at hd
  cases hd

namespace Integer

/-- The value of the digits, read on after digits of this value. -/
def valueFrom (value : Nat) (digits : List Char) : Nat :=
  digits.foldl (fun n c => 10 * n + digitValue c) value

theorem valueFrom_zero (digits : List Char) : valueFrom 0 digits = digitsValue digits := rfl

theorem le_valueFrom (value : Nat) (digits : List Char) : value ≤ valueFrom value digits := by
  induction digits generalizing value with
  | nil => exact Nat.le_refl _
  | cons d digits ih =>
    have next_le := ih (10 * value + digitValue d)
    have unfolded : valueFrom value (d :: digits) = valueFrom (10 * value + digitValue d) digits :=
      rfl
    omega

/-- Once the limit is passed there is no way back, so it does not matter at which digit that
happens. -/
theorem magnitude_append {limit value : Nat} {overflow : Fault} {digits : List Char}
    (rest : List Char) (hd : ∀ d ∈ digits, d.isDigit = true) (hv : value ≤ limit) :
    magnitude limit overflow value (digits ++ rest) =
      if valueFrom value digits ≤ limit then
        magnitude limit overflow (valueFrom value digits) rest
      else .error overflow := by
  induction digits generalizing value with
  | nil => rw [if_pos (show valueFrom value [] ≤ limit from hv)]; rfl
  | cons d digits ih =>
    obtain ⟨hdigit, hdigits⟩ := List.forall_mem_cons.1 hd
    have unfolded : valueFrom value (d :: digits) = valueFrom (10 * value + digitValue d) digits :=
      rfl
    rw [List.cons_append, magnitude, if_pos hdigit, unfolded]
    by_cases hnext : 10 * value + digitValue d ≤ limit
    · rw [if_pos hnext, ih hdigits hnext]
    · have passed := le_valueFrom (10 * value + digitValue d) digits
      rw [if_neg hnext, if_neg (by omega)]

/-- Without a sign, a text is read digit by digit. -/
theorem read_of_isDigit {c : Char} {rest : List Char} (hc : c.isDigit = true) :
    read (c :: rest) = (magnitude largest .tooLarge 0 (c :: rest)).map Int.ofNat := by
  have plus : c ≠ '+' := ne_of_isDigit hc rfl
  have minus : c ≠ '-' := ne_of_isDigit hc rfl
  unfold read
  split <;> simp_all

end Integer

namespace Decimal

theorem unsigned?_of_finite? {negative : Bool} {text : List Char} {decimal : Decimal}
    (h : finite? negative text = some decimal) : unsigned? negative text = some decimal := by
  rw [unsigned?, h, Option.some_or]

theorem read_of_isDigit {c : Char} {rest : List Char} {decimal : Decimal} (hc : c.isDigit = true)
    (h : finite? false (c :: rest) = some decimal) : read (c :: rest) = .ok decimal := by
  have plus : c ≠ '+' := ne_of_isDigit hc rfl
  have minus : c ≠ '-' := ne_of_isDigit hc rfl
  have unsigned := unsigned?_of_finite? h
  unfold read
  split <;> simp_all

end Decimal

/-- The digits in front of the point, and the point with the digits behind it, if there is one. -/
theorem IsNumber.exists_parts {text : String} (h : IsNumber text) :
    ∃ c more rest, text.toList = c :: more ++ rest ∧ (∀ d ∈ c :: more, d.isDigit = true) ∧
      text.toList.takeWhile (· ≠ '.') = c :: more ∧ text.toList.dropWhile (· ≠ '.') = rest ∧
      (rest = [] ∧ '.' ∉ text.toList ∨
        ∃ fraction, rest = '.' :: fraction ∧ '.' ∈ text.toList ∧
          ∀ d ∈ fraction, d.isDigit = true) := by
  obtain ⟨whole, hne, hwhole, hparts⟩ := h
  obtain ⟨c, more, rfl⟩ := List.exists_cons_of_ne_nil hne
  have digits : ∀ d ∈ c :: more, d.isDigit = true := fun d hd => isDigit_iff.2 (hwhole d hd)
  have no_point : ∀ d ∈ c :: more, decide (d ≠ '.') = true :=
    fun d hd => decide_eq_true (ne_of_isDigit (digits d hd) rfl)
  have taken (rest : List Char) : (c :: more ++ rest).takeWhile (· ≠ '.') =
      c :: more ++ rest.takeWhile (· ≠ '.') := List.takeWhile_append_of_pos no_point
  have dropped (rest : List Char) : (c :: more ++ rest).dropWhile (· ≠ '.') =
      rest.dropWhile (· ≠ '.') := List.dropWhile_append_of_pos no_point
  rcases hparts with ht | ⟨fraction, hfraction, ht⟩
  · have point : '.' ∉ c :: more := fun hmem => by simpa using no_point _ hmem
    rw [← List.append_nil (c :: more)] at ht
    refine ⟨c, more, [], ht, digits, ?_, ?_, .inl ⟨rfl, ?_⟩⟩
    · rw [ht, taken]; simp
    · rw [ht, dropped]; rfl
    · rwa [ht, List.append_nil]
  · refine ⟨c, more, '.' :: fraction, ht, digits, ?_, ?_, .inr ⟨fraction, rfl, ?_, ?_⟩⟩
    · rw [ht, taken]; simp
    · rw [ht, dropped]; simp
    · rw [ht]; simp
    · exact fun d hd => isDigit_iff.2 (hfraction d hd)

namespace Literal

theorem number_eq (text : String) :
    number text = if '.' ∈ text.toList then float text else integer text := rfl

theorem text?_number (text : String) : (number text).text? = some text := by
  rw [number_eq]
  split <;> rfl

/-- A number fails to be an integer by its value, or else by its point. -/
theorem toInteger_number {text : String} (h : IsNumber text) :
    (number text).toInteger =
      if '.' ∉ text.toList ∧ digitsValue text.toList ≤ Integer.largest then
        .ok (digitsValue text.toList)
      else
        .error (.badText text
          (if Integer.largest < digitsValue (text.toList.takeWhile (· ≠ '.')) then .tooLarge
            else .invalidDigit)) := by
  obtain ⟨c, more, rest, ht, digits, htake, -, hrest⟩ := h.exists_parts
  have scanned : Integer.read text.toList = Except.map Int.ofNat
      (if digitsValue (c :: more) ≤ Integer.largest then
        Integer.magnitude Integer.largest .tooLarge (digitsValue (c :: more)) rest
      else .error .tooLarge) := by
    have first : Integer.magnitude Integer.largest .tooLarge 0 (c :: more ++ rest) = _ :=
      Integer.magnitude_append rest digits (Nat.zero_le Integer.largest)
    rw [Integer.valueFrom_zero] at first
    rw [ht, ← first]
    exact Integer.read_of_isDigit (digits c List.mem_cons_self)
  rw [toInteger, text?_number, htake]
  dsimp only
  rw [scanned]
  rcases hrest with ⟨rfl, hpoint⟩ | ⟨fraction, rfl, hpoint, -⟩
  · rw [List.append_nil] at ht
    rw [ht] at hpoint ⊢
    by_cases hle : digitsValue (c :: more) ≤ Integer.largest
    · rw [if_pos hle, if_pos ⟨hpoint, hle⟩]
      rfl
    · rw [if_neg hle, if_neg (not_and_of_not_right _ hle), if_pos (Nat.lt_of_not_le hle)]
      rfl
  · rw [if_neg (not_and_of_not_left _ (not_not_intro hpoint))]
    by_cases hle : digitsValue (c :: more) ≤ Integer.largest
    · rw [if_pos hle, if_neg (Nat.not_lt_of_le hle)]
      rfl
    · rw [if_neg hle, if_pos (Nat.lt_of_not_le hle)]
      rfl

/-- As a decimal a number is what all its digits say, with the point moved in front of those
behind it. -/
theorem toDecimal_number {text : String} (h : IsNumber text) :
    let fraction := (text.toList.dropWhile (· ≠ '.')).tail
    (number text).toDecimal =
      .ok (.finite false (digitsValue (text.toList.takeWhile (· ≠ '.') ++ fraction))
        (-fraction.length)) := by
  intro fraction
  obtain ⟨c, more, rest, ht, digits, htake, hdrop, hrest⟩ := h.exists_parts
  have taken : text.toList.takeWhile Char.isDigit = c :: more ++ rest.takeWhile Char.isDigit := by
    rw [ht, List.takeWhile_append_of_pos digits]
  have dropped : text.toList.dropWhile Char.isDigit = rest.dropWhile Char.isDigit := by
    rw [ht, List.dropWhile_append_of_pos digits]
  have finite : Decimal.finite? false text.toList =
      some (.finite false (digitsValue (c :: more ++ fraction)) (-fraction.length)) := by
    rcases hrest with ⟨rfl, -⟩ | ⟨behind, rfl, -, hbehind⟩
    · have : fraction = [] := by simp only [fraction, hdrop, List.tail_nil]
      simp [Decimal.finite?, taken, dropped, this, Decimal.exponent?]
    · have : fraction = behind := by simp only [fraction, hdrop, List.tail_cons]
      have all_taken : behind.takeWhile Char.isDigit = behind :=
        List.takeWhile_eq_self_iff.2 hbehind
      have none_left : behind.dropWhile Char.isDigit = [] := List.dropWhile_eq_nil_iff.2 hbehind
      simp [Decimal.finite?, taken, dropped, this, Decimal.exponent?, all_taken, none_left]
  have scanned : Decimal.read text.toList =
      .ok (.finite false (digitsValue (c :: more ++ fraction)) (-fraction.length)) := by
    rw [ht] at finite ⊢
    exact Decimal.read_of_isDigit (digits c List.mem_cons_self) finite
  rw [toDecimal, text?_number, htake]
  dsimp only
  rw [scanned]

/-- A token of a kind that only numbers have. -/
theorem exists_number_of_kind {token : Token} (h : token.kind = .number) :
    ∃ digits, token.form = .number digits := by
  obtain ⟨form, line⟩ := token
  cases form with
  | number digits => exact ⟨digits, rfl⟩
  | punctuation p => cases p <;> cases h
  | operator op hasKind =>
    have alike : (Token.Form.number "").kind = (Token.Form.operator op hasKind).kind := h.symm
    obtain ⟨_, _, heq⟩ := Token.Form.eq_operator_of_kind alike
    cases heq
  | _ => cases h

/-- A number token of any source, one that cannot be scanned to its end included, is a float if it
has a point in it and else an integer. It can be read as a decimal, which is what all its digits
say with the point where it stands. It can be read as an integer if it has no point and the value
of its digits, however many and with whatever zeros in front, is no larger than the largest integer
of 64 bits with a sign. Where it cannot be read so, the fault is that the digits in front of the
point are too large, or if they are not, that the point is no digit. -/
theorem read_scanned_number {source : String} {verbose : Bool} {token : Token}
    (h : token ∈ (Scanner.ofSource source verbose).drain.tokens) (hk : token.kind = .number) :
    let digits := token.text.toList
    let whole := digits.takeWhile (· ≠ '.')
    let fraction := (digits.dropWhile (· ≠ '.')).tail
    ∃ literal, ofToken? token = some literal ∧
      literal = (if '.' ∈ digits then .float token.text else .integer token.text) ∧
      literal.toDecimal =
        .ok (.finite false (digitsValue (whole ++ fraction)) (-fraction.length)) ∧
      (∀ n, literal.toInteger = .ok n ↔
        '.' ∉ digits ∧ digitsValue digits ≤ Nat.pow 2 63 - 1 ∧ n = digitsValue digits) ∧
      ('.' ∈ digits ∨ Nat.pow 2 63 - 1 < digitsValue digits →
        literal.toInteger = .error (.badText token.text
          (if Nat.pow 2 63 - 1 < digitsValue whole then .tooLarge else .invalidDigit))) := by
  intro digits whole fraction
  obtain ⟨text, hform⟩ := exists_number_of_kind hk
  have htext : token.text = text := congrArg Token.Form.text hform
  have hnumber : IsNumber token.text := by
    rcases Scanner.yields_drain.scannable_of_mem token h with hscannable | heof
    · rw [hform] at hscannable
      rw [htext]
      exact hscannable
    · rw [hform] at heof
      cases heof
  have hlargest : Integer.largest = Nat.pow 2 63 - 1 := rfl
  have hinteger := toInteger_number hnumber
  rw [hlargest] at hinteger
  refine ⟨number token.text, ?_, number_eq _, toDecimal_number hnumber, fun n => ?_,
    fun hfails => ?_⟩
  · rw [ofToken?, hform, htext]
  · rw [hinteger]
    split
    · rename_i hfits
      constructor
      · intro hn
        exact ⟨hfits.1, hfits.2, (Except.ok.inj hn).symm⟩
      · rintro ⟨-, -, rfl⟩
        rfl
    · rename_i hfails
      constructor
      · intro hn
        cases hn
      · intro hn
        exact absurd ⟨hn.1, hn.2.1⟩ hfails
  · rw [hinteger, if_neg]
    rintro ⟨hpoint, hle⟩
    rcases hfails with hpoint' | hlt
    · exact hpoint hpoint'
    · exact Nat.not_lt_of_le hle hlt

/-- One digit too many and none too many in front of a point, before a character that cannot be
scanned. -/
theorem read_scanned_number_at_limit :
    let source := "09223372036854775808.5 9223372036854775807. @"
    let tooLarge : Token := ⟨.number "09223372036854775808.5", 1⟩
    let pointed : Token := ⟨.number "9223372036854775807.", 1⟩
    let tokens := (Scanner.ofSource source false).drain.tokens
    tooLarge ∈ tokens ∧ tooLarge.kind = .number ∧ pointed ∈ tokens ∧ pointed.kind = .number ∧
      (float tooLarge.text).toInteger = .error (.badText tooLarge.text .tooLarge) ∧
      (float pointed.text).toInteger = .error (.badText pointed.text .invalidDigit) := by
  intro source tooLarge pointed tokens
  have scanned : tokens = [tooLarge, pointed] := by decide +kernel
  have first : tooLarge ∈ tokens := by simp [scanned]
  have second : pointed ∈ tokens := by simp [scanned]
  have point : '.' ∈ tooLarge.text.toList ∧ '.' ∈ pointed.text.toList := by decide
  have exceeds : Nat.pow 2 63 - 1 < digitsValue (tooLarge.text.toList.takeWhile (· ≠ '.')) := by
    decide +kernel
  have fits : ¬Nat.pow 2 63 - 1 < digitsValue (pointed.text.toList.takeWhile (· ≠ '.')) := by
    decide +kernel
  obtain ⟨_, -, rfl, -, -, refused⟩ := read_scanned_number first rfl
  obtain ⟨_, -, rfl, -, -, refused'⟩ := read_scanned_number second rfl
  have refused := refused (.inl point.1)
  have refused' := refused' (.inl point.2)
  rw [if_pos point.1, if_pos exceeds] at refused
  rw [if_pos point.2, if_neg fits] at refused'
  exact ⟨first, rfl, second, rfl, refused, refused'⟩

end Literal
end FrontEnd
