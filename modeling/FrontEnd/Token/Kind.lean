import FrontEnd.Text.Title

/-!
# FrontEnd.Token.Kind

The kinds of token the language has.

* `TokenKind` — the kinds; `TokenKind.all` lists them in order.
* `TokenKind.label` — the name a token is shown under; no two kinds share one
  (`TokenKind.label_injective`).
-/

namespace FrontEnd

inductive TokenKind where
  | keyword
  | identifier
  | number
  | string
  | bool
  | null
  | eof
  | lBrace
  | rBrace
  | lParen
  | rParen
  | lBracket
  | rBracket
  | dot
  | comma
  | colon
  | semicolon
  | notEquals
  | equals
  | geq
  | leq
  | gt
  | lt
  | plusPlus
  | minusMinus
  /-- The plain `=`. -/
  | strictAssign
  /-- Any assignment that also computes, such as `+=`. -/
  | assign
  | plus
  | minus
  | times
  | div
  | mod
  | not
  | and
  | or
  | bitAnd
  | bitOr
  | bitNot
  | bitXor
  | rShift
  | lShift
  deriving DecidableEq, Repr

namespace TokenKind

def all : List TokenKind :=
  [keyword, identifier, number, string, bool, null, eof, lBrace, rBrace, lParen, rParen,
    lBracket, rBracket, dot, comma, colon, semicolon, notEquals, equals, geq, leq, gt, lt,
    plusPlus, minusMinus, strictAssign, assign, plus, minus, times, div, mod, not, and, or,
    bitAnd, bitOr, bitNot, bitXor, rShift, lShift]

def label : TokenKind → String
  | keyword => "KEYWORD"
  | identifier => "IDENTIFIER"
  | number => "NUMBER"
  | string => "STRING"
  | bool => "BOOL"
  | null => "NULL"
  | eof => "EOF"
  | lBrace => "L_BRACE"
  | rBrace => "R_BRACE"
  | lParen => "L_PAREN"
  | rParen => "R_PAREN"
  | lBracket => "L_BRACKET"
  | rBracket => "R_BRACKET"
  | dot => "DOT"
  | comma => "COMMA"
  | colon => "COLON"
  | semicolon => "SEMICOLON"
  | notEquals => "NOT_EQUALS"
  | equals => "EQUALS"
  | geq => "GEQ"
  | leq => "LEQ"
  | gt => "GT"
  | lt => "LT"
  | plusPlus => "PLUS_PLUS"
  | minusMinus => "MINUS_MINUS"
  | strictAssign => "STRICT_ASSIGN"
  | assign => "ASSIGN"
  | plus => "PLUS"
  | minus => "MINUS"
  | times => "TIMES"
  | div => "DIV"
  | mod => "MOD"
  | not => "NOT"
  | and => "AND"
  | or => "OR"
  | bitAnd => "BIT_AND"
  | bitOr => "BIT_OR"
  | bitNot => "BIT_NOT"
  | bitXor => "BIT_XOR"
  | rShift => "R_SHIFT"
  | lShift => "L_SHIFT"

/-- The label in title case. -/
def name (kind : TokenKind) : String := Text.title kind.label

def ofLabel? (label : String) : Option TokenKind := all.find? (·.label == label)

theorem mem_all (kind : TokenKind) : kind ∈ all := by cases kind <;> decide

theorem ofLabel?_label (kind : TokenKind) : ofLabel? kind.label = some kind := by
  cases kind <;> decide

theorem label_injective {a b : TokenKind} (h : a.label = b.label) : a = b :=
  Option.some.inj (by rw [← ofLabel?_label a, h, ofLabel?_label])

end TokenKind

end FrontEnd
