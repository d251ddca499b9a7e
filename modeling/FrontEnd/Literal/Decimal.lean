import FrontEnd.Literal.Integer

/-!
# FrontEnd.Literal.Decimal

Reading decimal numbers as double precision floats.

* `Decimal` — what a text denotes: digits times a power of ten, infinity, or no number.
* `Decimal.read` — an optional sign, then a word for infinity or "not a number" in any case, or
  digits with an optional point among or around them and an optional exponent.
* `Decimal.toFloat` — the nearest float.
-/

namespace FrontEnd

inductive Decimal where
  | finite (negative : Bool) (digits : Nat) (exponent : Int)
  | infinite (negative : Bool)
  | notANumber
  deriving DecidableEq, Repr

namespace Decimal

inductive Fault where
  | empty
  | invalid
  deriving DecidableEq, Repr

def Fault.message : Fault → String
  | .empty => "cannot parse float from empty string"
  | .invalid => "invalid float literal"

/-- The value of a run of digits. -/
def digitsValue (digits : List Char) : Nat :=
  digits.foldl (fun n c => 10 * n + Integer.digitValue c) 0

/-- What follows the digits: nothing, or an exponent mark, an optional sign and digits. -/
def exponent? : List Char → Option Int
  | [] => some 0
  | mark :: rest =>
    if mark = 'e' ∨ mark = 'E' then
      let (negative, digits) := match rest with
        | '-' :: digits => (true, digits)
        | '+' :: digits => (false, digits)
        | digits => (false, digits)
      if digits ≠ [] ∧ digits.all Char.isDigit then
        some (if negative then -(digitsValue digits : Int) else digitsValue digits)
      else none
    else none

/-- Digits with an optional point, at least one digit in all, then the exponent. -/
def finite? (negative : Bool) (text : List Char) : Option Decimal :=
  let whole := text.takeWhile Char.isDigit
  let (fraction, rest) := match text.dropWhile Char.isDigit with
    | '.' :: rest => (rest.takeWhile Char.isDigit, rest.dropWhile Char.isDigit)
    | rest => ([], rest)
  if whole = [] ∧ fraction = [] then none
  else
    (exponent? rest).map fun exponent =>
      finite negative (digitsValue (whole ++ fraction)) (exponent - fraction.length)

/-- The words for what is no finite number, in small letters. -/
def word? (negative : Bool) (text : List Char) : Option Decimal :=
  let word := String.ofList (text.map Char.toLower)
  if word = "nan" then some notANumber
  else if word = "inf" ∨ word = "infinity" then some (infinite negative)
  else none

def unsigned? (negative : Bool) (text : List Char) : Option Decimal :=
  (finite? negative text).or (word? negative text)

def read (text : List Char) : Except Fault Decimal :=
  let decimal? := match text with
    | '-' :: rest => unsigned? true rest
    | '+' :: rest => unsigned? false rest
    | rest => unsigned? false rest
  match text, decimal? with
  | [], _ => .error .empty
  | _, none => .error .invalid
  | _, some decimal => .ok decimal

/-- Decimal digits the number has; zero has none. -/
def digitCount (n : Nat) : Nat := if n = 0 then 0 else (Nat.toDigits 10 n).length

/-- The float next to `digits * 10 ^ exponent`. Floats lie between `10 ^ -400` and `10 ^ 400`,
so what is out of these bounds needs no power of ten. -/
def magnitude (digits : Nat) (exponent : Int) : Float :=
  let size := digitCount digits + exponent
  if digits = 0 ∨ size < -400 then 0.0
  else if size > 400 then 1.0 / 0.0
  else Float.ofScientific digits (exponent < 0) exponent.natAbs

def toFloat : Decimal → Float
  | finite negative digits exponent =>
    if negative then -(magnitude digits exponent) else magnitude digits exponent
  | infinite negative => if negative then -(1.0 / 0.0) else 1.0 / 0.0
  | notANumber => 0.0 / 0.0

end Decimal

end FrontEnd
