import FrontEnd.Infix.Resolve
import FrontEnd.Proofs.Text.Words

/-!
# FrontEnd.Proofs.Infix.Tree

Expression trees, and the ways to write them with infix operators.

* `Infix.Operand`, `Infix.BinaryOperator`, `Infix.PrefixOperator` — what trees are made of.
* `Infix.Tree`, `Infix.Tree.postorder` — the trees and the order that the postfix form has.
* `Infix.Renders tree level tokens` — the tokens write the tree: a tree of a higher level than
  its place allows stands in parentheses, and any other may.
* `Infix.Renders.unbroken` — every token is a word.
-/

namespace FrontEnd
namespace Infix

/-- A word that is neither an operator nor a parenthesis. -/
structure Operand where
  text : String
  unbroken : Text.Unbroken text
  not_operator : ∀ operator : InfixOperator, text ∉ operator.lexemes
  not_open : text ≠ "("
  not_close : text ≠ ")"

/-- Letters make an operand. -/
theorem exists_operand {text : String} (hne : text ≠ "")
    (h : text.toList.all Char.isAlpha = true) : ∃ x : Operand, x.text = text := by
  have unbroken : Text.Unbroken text :=
    ⟨hne, fun c hc => Text.isBlank_of_isAlpha (List.all_eq_true.1 h c hc)⟩
  have other {sign : String} (hsign : sign.toList.all Char.isAlpha = false) : text ≠ sign := by
    rintro rfl
    rw [h] at hsign
    cases hsign
  have no_letters : ∀ operator : InfixOperator, ∀ lexeme ∈ operator.lexemes,
      lexeme.toList.all Char.isAlpha = false := by
    intro operator
    cases operator <;> decide
  exact ⟨⟨text, unbroken, fun operator ho => other (no_letters operator text ho) rfl,
    other rfl, other rfl⟩, rfl⟩

/-- An operator between two operands, in one of its spellings. -/
structure BinaryOperator where
  lexeme : String
  operator : InfixOperator
  spelled : lexeme ∈ operator.lexemes
  binary : 3 ≤ operator.strength

inductive PrefixOperator where
  | bang
  | plusPlus
  | minusMinus

namespace PrefixOperator

def operator : PrefixOperator → InfixOperator
  | bang => .bang
  | plusPlus => .plusPlus
  | minusMinus => .minusMinus

def lexeme (prefixOp : PrefixOperator) : String := prefixOp.operator.lexeme

end PrefixOperator

inductive Tree where
  | operand (operand : Operand)
  | unary (prefixOp : PrefixOperator) (tree : Tree)
  | binary (operator : BinaryOperator) (left right : Tree)

/-- Operands before their operators, the left one first. -/
def Tree.postorder : Tree → List String
  | operand x => [x.text]
  | unary prefixOp tree => tree.postorder ++ [prefixOp.lexeme]
  | binary operator left right => left.postorder ++ right.postorder ++ [operator.lexeme]

/-- The level is the strength of the operator outside all parentheses, and nought where there is
none. A left operand may have the level of its operator, a right one must be below it, and a
prefix operator has an operand of level nought. -/
inductive Renders : Tree → Nat → List String → Prop
  | operand {x : Operand} : Renders (.operand x) 0 [x.text]
  | group {tree : Tree} {level : Nat} {tokens : List String} : Renders tree level tokens →
    Renders tree 0 ("(" :: (tokens ++ [")"]))
  | unary {prefixOp : PrefixOperator} {tree : Tree} {tokens : List String} :
    Renders tree 0 tokens → Renders (.unary prefixOp tree) 2 (prefixOp.lexeme :: tokens)
  | binary {operator : BinaryOperator} {left right : Tree} {leftLevel rightLevel : Nat}
      {leftTokens rightTokens : List String} :
    Renders left leftLevel leftTokens → leftLevel ≤ operator.operator.strength →
    Renders right rightLevel rightTokens → rightLevel < operator.operator.strength →
    Renders (.binary operator left right) operator.operator.strength
      (leftTokens ++ operator.lexeme :: rightTokens)

theorem unbroken_of_mem_lexemes {operator : InfixOperator} {lexeme : String}
    (h : lexeme ∈ operator.lexemes) : Text.Unbroken lexeme := by
  cases operator <;>
    simp only [InfixOperator.lexemes, List.mem_cons, List.not_mem_nil, or_false] at h
  case notEquals => rcases h with rfl | rfl <;> exact Text.unbroken_of_all (by decide) rfl
  all_goals
    subst h
    exact Text.unbroken_of_all (by decide) rfl

theorem PrefixOperator.lexeme_mem (prefixOp : PrefixOperator) :
    prefixOp.lexeme ∈ prefixOp.operator.lexemes := by
  cases prefixOp <;> exact List.mem_singleton_self _

theorem Renders.unbroken {tree : Tree} {level : Nat} {tokens : List String}
    (h : Renders tree level tokens) : ∀ token ∈ tokens, Text.Unbroken token := by
  have paren : Text.Unbroken "(" ∧ Text.Unbroken ")" :=
    ⟨Text.unbroken_of_all (by decide) rfl, Text.unbroken_of_all (by decide) rfl⟩
  induction h with
  | @operand x =>
    intro token ht
    rw [List.mem_singleton.1 ht]
    exact x.unbroken
  | group _ ih =>
    intro token ht
    simp only [List.mem_cons, List.mem_append, List.not_mem_nil, or_false] at ht
    rcases ht with rfl | ht | rfl
    · exact paren.1
    · exact ih token ht
    · exact paren.2
  | @unary prefixOp _ _ _ ih =>
    intro token ht
    rcases List.mem_cons.1 ht with rfl | ht
    · exact unbroken_of_mem_lexemes prefixOp.lexeme_mem
    · exact ih token ht
  | @binary operator _ _ _ _ _ _ _ _ _ _ ihl ihr =>
    intro token ht
    simp only [List.mem_append, List.mem_cons] at ht
    rcases ht with ht | rfl | ht
    · exact ihl token ht
    · exact unbroken_of_mem_lexemes operator.spelled
    · exact ihr token ht

end Infix
end FrontEnd
