import FrontEnd.Proofs.Infix.Tree

/-!
# FrontEnd.Proofs.Infix.Expression

Infix expressions in which any operator may stand before an operand, and postfix sequences.

* `Infix.Sign`, `Infix.Use`, `Infix.Piece` — a token with what it is there for.
* `Infix.Expression`, `Infix.Expression.pieces` — the expressions, and how they are written. Which
  of them a sequence of pieces is meant for is left open: parentheses are kept, strengths are not
  asked for.
* `Infix.evaluate` — the evaluation of a postfix sequence on a stack of values.
* `Infix.evaluate_postorder` — the postorder of an expression evaluates to its value.
-/

namespace FrontEnd
namespace Infix

/-- An operator in one of its spellings. -/
structure Sign where
  lexeme : String
  operator : InfixOperator
  spelled : lexeme ∈ operator.lexemes

def Sign.strength (sign : Sign) : Nat := sign.operator.strength

/-- A sign where it stands: before one operand, or between two. -/
structure Use where
  unary : Bool
  sign : Sign

def Use.strength (use : Use) : Nat := use.sign.strength

inductive Piece where
  | operand (operand : Operand)
  | operator (use : Use)
  | opened
  | closed

def Piece.text : Piece → String
  | operand x => x.text
  | operator use => use.sign.lexeme
  | opened => "("
  | closed => ")"

inductive Expression where
  | operand (operand : Operand)
  | group (inner : Expression)
  | unary (sign : Sign) (inner : Expression)
  | binary (sign : Sign) (left right : Expression)

/-- What operands and operators mean, an operator before one operand and between two. -/
structure Interpretation (α : Type) where
  operand : String → α
  unary : String → α → α
  binary : String → α → α → α

namespace Expression

def pieces : Expression → List Piece
  | operand x => [.operand x]
  | group inner => .opened :: (inner.pieces ++ [.closed])
  | unary sign inner => .operator ⟨true, sign⟩ :: inner.pieces
  | binary sign left right => left.pieces ++ .operator ⟨false, sign⟩ :: right.pieces

/-- Operands before their operators, the left one first. -/
def postorder : Expression → List Piece
  | operand x => [.operand x]
  | group inner => inner.postorder
  | unary sign inner => inner.postorder ++ [.operator ⟨true, sign⟩]
  | binary sign left right => left.postorder ++ right.postorder ++ [.operator ⟨false, sign⟩]

def value {α : Type} (meaning : Interpretation α) : Expression → α
  | operand x => meaning.operand x.text
  | group inner => inner.value meaning
  | unary sign inner => meaning.unary sign.lexeme (inner.value meaning)
  | binary sign left right =>
    meaning.binary sign.lexeme (left.value meaning) (right.value meaning)

end Expression

section Evaluation

variable {α : Type} (meaning : Interpretation α)

/-- One piece of a postfix sequence on the values so far, the last one first. There is none after
an operator that lacks an operand. -/
def Piece.apply : Piece → List α → Option (List α)
  | operand x, values => some (meaning.operand x.text :: values)
  | operator ⟨true, sign⟩, v :: values => some (meaning.unary sign.lexeme v :: values)
  | operator ⟨false, sign⟩, w :: v :: values =>
    some (meaning.binary sign.lexeme v w :: values)
  | _, _ => none

def evaluate : List Piece → List α → Option (List α)
  | [], values => some values
  | piece :: rest, values => (piece.apply meaning values).bind (evaluate rest)

theorem evaluate_append (before after : List Piece) (values : List α) :
    evaluate meaning (before ++ after) values =
      (evaluate meaning before values).bind (evaluate meaning after) := by
  induction before generalizing values with
  | nil => rfl
  | cons piece before ih =>
    simp only [List.cons_append, evaluate]
    cases piece.apply meaning values with
    | none => rfl
    | some values => exact ih values

theorem evaluate_postorder (expression : Expression) (values : List α) :
    evaluate meaning expression.postorder values =
      some (expression.value meaning :: values) := by
  induction expression generalizing values with
  | operand x => rfl
  | group inner ih => exact ih values
  | unary sign inner ih =>
    rw [Expression.postorder, evaluate_append, ih]
    rfl
  | binary sign left right ihl ihr =>
    rw [Expression.postorder, evaluate_append, evaluate_append, ihl, Option.bind_some, ihr]
    rfl

end Evaluation

end Infix
end FrontEnd
