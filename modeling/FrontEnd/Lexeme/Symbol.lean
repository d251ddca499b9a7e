import FrontEnd.Token.Kind

/-!
# FrontEnd.Lexeme.Symbol

The lexemes made of other characters than letters and digits.

* `Punctuation` — single characters, each with a token kind of its own.
* `Operator` — operators of one to three characters. All assignments that also compute share
  the kind `TokenKind.assign`; `**` and `~=` are scanned but have no kind (`Operator.kind?`);
  `%=` has a kind but is not scanned, since `%` begins an identifier (`Operator.isScanned`).
-/

namespace FrontEnd

inductive Punctuation where
  | dot
  | comma
  | lBrace
  | rBrace
  | colon
  | lParen
  | rParen
  | lBracket
  | rBracket
  | semicolon
  deriving DecidableEq, Repr

namespace Punctuation

def all : List Punctuation :=
  [dot, comma, lBrace, rBrace, colon, lParen, rParen, lBracket, rBracket, semicolon]

def char : Punctuation → Char
  | dot => '.'
  | comma => ','
  | lBrace => '\x7b'
  | rBrace => '\x7d'
  | colon => ':'
  | lParen => '('
  | rParen => ')'
  | lBracket => '['
  | rBracket => ']'
  | semicolon => ';'

def lexeme (punctuation : Punctuation) : String := String.singleton punctuation.char

def kind : Punctuation → TokenKind
  | dot => .dot
  | comma => .comma
  | lBrace => .lBrace
  | rBrace => .rBrace
  | colon => .colon
  | lParen => .lParen
  | rParen => .rParen
  | lBracket => .lBracket
  | rBracket => .rBracket
  | semicolon => .semicolon

def name (punctuation : Punctuation) : String := punctuation.kind.name

def ofChar? (c : Char) : Option Punctuation := all.find? (·.char == c)

theorem ofChar?_char (punctuation : Punctuation) :
    ofChar? punctuation.char = some punctuation := by
  cases punctuation <;> decide

theorem ofChar?_eq_some_iff {c : Char} {punctuation : Punctuation} :
    ofChar? c = some punctuation ↔ punctuation.char = c := by
  constructor
  · intro h
    have found := List.find?_some h
    exact eq_of_beq found
  · rintro rfl
    exact ofChar?_char punctuation

end Punctuation

inductive Operator where
  | strictAssign
  | plus
  | minus
  | times
  | div
  | mod
  | pow
  | plusPlus
  | minusMinus
  | rShift
  | lShift
  | equals
  | notEquals
  | geq
  | leq
  | gt
  | lt
  | plusAssign
  | minusAssign
  | timesAssign
  | divAssign
  | modAssign
  | andAssign
  | orAssign
  | xorAssign
  | tildeAssign
  | rShiftAssign
  | lShiftAssign
  | not
  | and
  | or
  | bitNot
  | bitAnd
  | bitOr
  | bitXor
  deriving DecidableEq, Repr

namespace Operator

def all : List Operator :=
  [strictAssign, plus, minus, times, div, mod, pow, plusPlus, minusMinus, rShift, lShift,
    equals, notEquals, geq, leq, gt, lt, plusAssign, minusAssign, timesAssign, divAssign,
    modAssign, andAssign, orAssign, xorAssign, tildeAssign, rShiftAssign, lShiftAssign, not,
    and, or, bitNot, bitAnd, bitOr, bitXor]

def lexeme : Operator → String
  | strictAssign => "="
  | plus => "+"
  | minus => "-"
  | times => "*"
  | div => "/"
  | mod => "%"
  | pow => "**"
  | plusPlus => "++"
  | minusMinus => "--"
  | rShift => ">>"
  | lShift => "<<"
  | equals => "=="
  | notEquals => "!="
  | geq => ">="
  | leq => "<="
  | gt => ">"
  | lt => "<"
  | plusAssign => "+="
  | minusAssign => "-="
  | timesAssign => "*="
  | divAssign => "/="
  | modAssign => "%="
  | andAssign => "&="
  | orAssign => "|="
  | xorAssign => "^="
  | tildeAssign => "~="
  | rShiftAssign => ">>="
  | lShiftAssign => "<<="
  | not => "!"
  | and => "&&"
  | or => "||"
  | bitNot => "~"
  | bitAnd => "&"
  | bitOr => "|"
  | bitXor => "^"

/-- The kind of token the operator makes, if it makes one. -/
def kind? : Operator → Option TokenKind
  | strictAssign => some .strictAssign
  | plus => some .plus
  | minus => some .minus
  | times => some .times
  | div => some .div
  | mod => some .mod
  | pow => none
  | plusPlus => some .plusPlus
  | minusMinus => some .minusMinus
  | rShift => some .rShift
  | lShift => some .lShift
  | equals => some .equals
  | notEquals => some .notEquals
  | geq => some .geq
  | leq => some .leq
  | gt => some .gt
  | lt => some .lt
  | plusAssign => some .assign
  | minusAssign => some .assign
  | timesAssign => some .assign
  | divAssign => some .assign
  | modAssign => some .assign
  | andAssign => some .assign
  | orAssign => some .assign
  | xorAssign => some .assign
  | tildeAssign => none
  | rShiftAssign => some .assign
  | lShiftAssign => some .assign
  | not => some .not
  | and => some .and
  | or => some .or
  | bitNot => some .bitNot
  | bitAnd => some .bitAnd
  | bitOr => some .bitOr
  | bitXor => some .bitXor

def name : Operator → String
  | strictAssign => "StrictAssign"
  | plus => "Plus"
  | minus => "Minus"
  | times => "Times"
  | div => "Div"
  | mod => "Mod"
  | pow => "Pow"
  | plusPlus => "PlusPlus"
  | minusMinus => "MinusMinus"
  | rShift => "RShift"
  | lShift => "LShift"
  | equals => "Equals"
  | notEquals => "NotEquals"
  | geq => "Geq"
  | leq => "Leq"
  | gt => "Gt"
  | lt => "Lt"
  | plusAssign => "PlusAssign"
  | minusAssign => "MinusAssign"
  | timesAssign => "TimesAssign"
  | divAssign => "DivAssign"
  | modAssign => "ModAssign"
  | andAssign => "AndAssign"
  | orAssign => "OrAssign"
  | xorAssign => "XorAssign"
  | tildeAssign => "TildeAssign"
  | rShiftAssign => "RShiftAssign"
  | lShiftAssign => "LShiftAssign"
  | not => "Not"
  | and => "And"
  | or => "Or"
  | bitNot => "BitNot"
  | bitAnd => "BitAnd"
  | bitOr => "BitOr"
  | bitXor => "BitXor"

/-- Whether the scanner reads the operator: every one but `%=`. -/
def isScanned (operator : Operator) : Bool := operator != modAssign

def ofLexeme? (lexeme : String) : Option Operator := all.find? (·.lexeme == lexeme)

/-- The operator the scanner reads from exactly this text. -/
def scanned? (lexeme : String) : Option Operator := (ofLexeme? lexeme).filter isScanned

theorem ofLexeme?_lexeme (operator : Operator) : ofLexeme? operator.lexeme = some operator := by
  cases operator <;> decide

theorem ofLexeme?_eq_some_iff {lexeme : String} {operator : Operator} :
    ofLexeme? lexeme = some operator ↔ operator.lexeme = lexeme := by
  constructor
  · intro h
    have found := List.find?_some h
    exact eq_of_beq found
  · rintro rfl
    exact ofLexeme?_lexeme operator

end Operator

end FrontEnd
