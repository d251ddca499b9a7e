import FrontEnd.Literal.Decimal
import FrontEnd.Token.Basic

/-!
# FrontEnd.Literal.Basic

The values that literal tokens stand for. A literal keeps its text; a number is read from it
when it is asked for.

* `Literal` — the literals, and `Literal.ofToken?` the one a token stands for.
* `Literal.toInteger`, `Literal.toDecimal` — the text read as a number.
-/

namespace FrontEnd

inductive Literal where
  | integer (text : String)
  | float (text : String)
  | string (text : String)
  | bool (text : String)
  | null
  deriving DecidableEq, Repr

namespace Literal

/-- A number with a decimal point is a float, any other an integer. -/
def number (text : String) : Literal :=
  if '.' ∈ text.toList then float text else integer text

/-- The value of a literal token; other tokens have none. -/
def ofToken? (token : Token) : Option Literal :=
  match token.form with
  | .number digits => some (number digits)
  | .string value => some (string value)
  | .bool _ => some (bool token.text)
  | .null => some null
  | _ => none

def kindName : Literal → String
  | integer _ => "integer"
  | float _ => "float"
  | string _ => "string"
  | bool _ => "bool"
  | null => "null"

def text? : Literal → Option String
  | integer text => some text
  | float text => some text
  | string text => some text
  | bool text => some text
  | null => none

/-- Whether the text is the word `true`, whatever the kind. -/
def isTrue (literal : Literal) : Bool :=
  literal.text? = some LiteralWord.trueWord.lexeme

/-- Strings are shown quoted, other literals as they are written. -/
def display : Literal → String
  | string text => Text.quote text
  | literal => literal.text?.getD LiteralWord.nullWord.lexeme

/-- Why a literal cannot be read as a number: it has no text, or its text is at fault. -/
inductive ReadError (Fault : Type) where
  | noText
  | badText (text : String) (fault : Fault)
  deriving DecidableEq, Repr

namespace ReadError

variable {Fault : Type}

def subject : ReadError Fault → String
  | noText => "None"
  | badText text _ => "Some(" ++ Text.quote text ++ ")"

def fault? : ReadError Fault → Option Fault
  | noText => none
  | badText _ fault => some fault

/-- The message for a literal asked for as an integer. -/
def notInteger (error : ReadError Integer.Fault) : String :=
  error.subject ++ " is not an integer"

/-- The message for a literal asked for as a float. -/
def notFloat (error : ReadError Decimal.Fault) : String :=
  error.subject ++ " is not a float"

end ReadError

def toInteger (literal : Literal) : Except (ReadError Integer.Fault) Int :=
  match literal.text? with
  | none => .error .noText
  | some text =>
    match Integer.read text.toList with
    | .error fault => .error (.badText text fault)
    | .ok n => .ok n

def toDecimal (literal : Literal) : Except (ReadError Decimal.Fault) Decimal :=
  match literal.text? with
  | none => .error .noText
  | some text =>
    match Decimal.read text.toList with
    | .error fault => .error (.badText text fault)
    | .ok decimal => .ok decimal

end Literal

end FrontEnd
