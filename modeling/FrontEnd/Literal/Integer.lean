/-!
# FrontEnd.Literal.Integer

Reading whole numbers that fit in 64 bits with a sign.

* `Integer.Fault` — why a text is no such number.
* `Integer.magnitude` — the value of a run of digits, refused at the first character that is no
  digit or takes the value past a limit, whichever comes first from the left.
* `Integer.read` — an optional sign and its digits.
-/

namespace FrontEnd.Integer

def largest : Nat := Nat.pow 2 63 - 1

/-- The magnitude of the least number. -/
def leastMagnitude : Nat := Nat.pow 2 63

inductive Fault where
  | empty
  | invalidDigit
  | tooLarge
  | tooSmall
  deriving DecidableEq, Repr

def Fault.message : Fault → String
  | .empty => "cannot parse integer from empty string"
  | .invalidDigit => "invalid digit found in string"
  | .tooLarge => "number too large to fit in target type"
  | .tooSmall => "number too small to fit in target type"

def digitValue (c : Char) : Nat := c.toNat - '0'.toNat

/-- The value of the digits read on after `value`, which may not pass `limit`; `overflow` is the
fault of passing it. -/
def magnitude (limit : Nat) (overflow : Fault) (value : Nat) : List Char → Except Fault Nat
  | [] => .ok value
  | c :: rest =>
    if c.isDigit then
      let next := 10 * value + digitValue c
      if next ≤ limit then magnitude limit overflow next rest else .error overflow
    else .error .invalidDigit

def read (text : List Char) : Except Fault Int :=
  match text with
  | [] => .error .empty
  | ['+'] => .error .invalidDigit
  | ['-'] => .error .invalidDigit
  | '+' :: digits => (magnitude largest .tooLarge 0 digits).map Int.ofNat
  | '-' :: digits => (magnitude leastMagnitude .tooSmall 0 digits).map fun n => -Int.ofNat n
  | digits => (magnitude largest .tooLarge 0 digits).map Int.ofNat

end FrontEnd.Integer
