/-!
# FrontEnd.Infix.Operator

The operators of infix expressions and how tightly they bind.

* `InfixOperator.lexemes` — the spellings; only "not equal" has two.
* `InfixOperator.strength` — a number that is the smaller, the tighter the operator binds. It is
  the same for an operator before one operand and between two.
-/

namespace FrontEnd

inductive InfixOperator where
  | add
  | subtract
  | multiply
  | divide
  | mod
  | rShift
  | lShift
  | bang
  | assign
  | equals
  | notEquals
  | plusPlus
  | minusMinus
  | plusAssign
  | minusAssign
  | lt
  | gt
  | leq
  | geq
  | timesAssign
  | divAssign
  | modAssign
  | andAssign
  | orAssign
  | xorAssign
  | rShiftAssign
  | lShiftAssign
  | bitOr
  | bitAnd
  | bitXor
  | and
  | or
  deriving DecidableEq, Repr

namespace InfixOperator

def all : List InfixOperator :=
  [add, subtract, multiply, divide, mod, rShift, lShift, bang, assign, equals, notEquals,
    plusPlus, minusMinus, plusAssign, minusAssign, lt, gt, leq, geq, timesAssign, divAssign,
    modAssign, andAssign, orAssign, xorAssign, rShiftAssign, lShiftAssign, bitOr, bitAnd, bitXor,
    and, or]

/-- The spelling by which the operator is shown. -/
def lexeme : InfixOperator → String
  | add => "+"
  | subtract => "-"
  | multiply => "*"
  | divide => "/"
  | mod => "%"
  | rShift => ">>"
  | lShift => "<<"
  | bang => "!"
  | assign => "="
  | equals => "=="
  | notEquals => "<>"
  | plusPlus => "++"
  | minusMinus => "--"
  | plusAssign => "+="
  | minusAssign => "-="
  | lt => "<"
  | gt => ">"
  | leq => "<="
  | geq => ">="
  | timesAssign => "*="
  | divAssign => "/="
  | modAssign => "%="
  | andAssign => "&="
  | orAssign => "|="
  | xorAssign => "^="
  | rShiftAssign => ">>="
  | lShiftAssign => "<<="
  | bitOr => "|"
  | bitAnd => "&"
  | bitXor => "^"
  | and => "&&"
  | or => "||"

def lexemes : InfixOperator → List String
  | notEquals => ["!=", "<>"]
  | operator => [operator.lexeme]

def name : InfixOperator → String
  | add => "Add"
  | subtract => "Subtract"
  | multiply => "Multiply"
  | divide => "Divide"
  | mod => "Mod"
  | rShift => "RShift"
  | lShift => "LShift"
  | bang => "Bang"
  | assign => "Assign"
  | equals => "Equals"
  | notEquals => "NotEquals"
  | plusPlus => "PlusPlus"
  | minusMinus => "MinusMinus"
  | plusAssign => "PlusAssign"
  | minusAssign => "MinusAssign"
  | lt => "Lt"
  | gt => "Gt"
  | leq => "Leq"
  | geq => "Geq"
  | timesAssign => "TimesAssign"
  | divAssign => "DivAssign"
  | modAssign => "ModAssign"
  | andAssign => "AndAssign"
  | orAssign => "OrAssign"
  | xorAssign => "XorAssign"
  | rShiftAssign => "RShiftAssign"
  | lShiftAssign => "LShiftAssign"
  | bitOr => "BitOr"
  | bitAnd => "BitAnd"
  | bitXor => "BitXor"
  | and => "And"
  | or => "Or"

def strength : InfixOperator → Nat
  | bang | plusPlus | minusMinus => 2
  | multiply | divide | mod => 3
  | add | subtract => 4
  | rShift | lShift | gt | leq | geq => 5
  | lt => 6
  | equals | notEquals => 7
  | bitAnd => 8
  | bitXor => 9
  | bitOr => 10
  | and => 11
  | or => 12
  | assign | plusAssign | minusAssign | timesAssign | divAssign | modAssign | andAssign
  | orAssign | xorAssign | rShiftAssign | lShiftAssign => 14

def ofLexeme? (lexeme : String) : Option InfixOperator :=
  all.find? (·.lexemes.contains lexeme)

theorem ofLexeme?_of_mem {operator : InfixOperator} {lexeme : String}
    (h : lexeme ∈ operator.lexemes) : ofLexeme? lexeme = some operator := by
  cases operator <;> simp only [lexemes, List.mem_cons, List.not_mem_nil, or_false] at h
  case notEquals => rcases h with rfl | rfl <;> decide
  all_goals subst h; decide

theorem ofLexeme?_eq_some_iff {lexeme : String} {operator : InfixOperator} :
    ofLexeme? lexeme = some operator ↔ lexeme ∈ operator.lexemes := by
  constructor
  · intro h
    have found := List.find?_some h
    exact List.contains_iff_mem.1 found
  · exact ofLexeme?_of_mem

end InfixOperator

end FrontEnd
