import FrontEnd.Proofs.Infix.Expression
import FrontEnd.Proofs.Infix.Postorder

/-!
# FrontEnd.Proofs.Infix.Course

The resolver's run over an infix expression, with an account of what every operator is there for.

* `Infix.Course awaited read out own around` — a point of the run: whether an operand is awaited,
  the pieces read, the pieces sent, and the operators that wait.
* `Infix.Course.sends` — the resolver gets to these points.
* `Infix.Course.exists_pieces` — and every expression leads from one that awaits an operand to
  one that does not, the same parentheses open.
* `Infix.Course.resolve_eq` — at the end it has sent everything.
-/

namespace FrontEnd
namespace Infix

/-- Operators as they wait on the stack, where it is forgotten how many operands they have. -/
def onStack (uses : List Use) : Stack :=
  waiting (uses.map fun use => (use.sign.lexeme, use.sign.operator))

/-- The open parentheses, each with its place and the operators that wait below it. -/
def outside : List (Nat × List Use) → Stack
  | [] => []
  | (index, uses) :: around => .opened index :: (onStack uses ++ outside around)

/-- An operator of the strength takes `popped` off the stack, and then finds `kept`. -/
structure Divides (strength : Nat) (popped kept : List Use) : Prop where
  tight : ∀ use ∈ popped, use.strength ≤ strength
  loose : ∀ use ∈ kept.head?, strength < use.strength

theorem exists_divides (strength : Nat) (uses : List Use) :
    ∃ popped kept, uses = popped ++ kept ∧ Divides strength popped kept := by
  induction uses with
  | nil => exact ⟨[], [], rfl, by simp, by simp⟩
  | cons use uses ih =>
    by_cases h : use.strength ≤ strength
    · obtain ⟨popped, kept, rfl, tight, loose⟩ := ih
      exact ⟨use :: popped, kept, rfl, List.forall_mem_cons.2 ⟨h, tight⟩, loose⟩
    · exact ⟨[], use :: uses, rfl, by simp, by simpa using Nat.lt_of_not_le h⟩

/-- The points of a run over an expression: whether an operand is awaited, the pieces read, those
sent, the operators that wait inside the innermost parentheses, the last first, and those that
wait around each open parenthesis, with its place. -/
inductive Course :
    Bool → List Piece → List Piece → List Use → List (Nat × List Use) → Prop
  | start : Course true [] [] [] []
  | operand {x : Operand} {read out : List Piece} {own : List Use}
      {around : List (Nat × List Use)} :
    Course true read out own around →
    Course false (read ++ [.operand x]) (out ++ [.operand x]) own around
  | operator {use : Use} {read out : List Piece} {popped kept : List Use}
      {around : List (Nat × List Use)} :
    Course use.unary read out (popped ++ kept) around → Divides use.strength popped kept →
    Course true (read ++ [.operator use]) (out ++ popped.map .operator) (use :: kept) around
  | opened {read out : List Piece} {own : List Use} {around : List (Nat × List Use)} :
    Course true read out own around →
    Course true (read ++ [.opened]) out [] ((read.length, own) :: around)
  | closed {read out : List Piece} {own outer : List Use} {index : Nat}
      {around : List (Nat × List Use)} :
    Course false read out own ((index, outer) :: around) →
    Course false (read ++ [.closed]) (out ++ own.map .operator) outer around

theorem onStack_append (a b : List Use) : onStack (a ++ b) = onStack a ++ onStack b := by
  simp [onStack, waiting]

theorem map_lexeme (uses : List Use) :
    (uses.map fun use => (use.sign.lexeme, use.sign.operator)).map Prod.fst =
      (uses.map Piece.operator).map Piece.text := by
  simp [Piece.text]

theorem above_onStack {strength : Nat} {kept : List Use} {around : List (Nat × List Use)}
    (h : ∀ use ∈ kept.head?, strength < use.strength) :
    Above strength (onStack kept ++ outside around) := by
  cases kept with
  | nil =>
    cases around with
    | nil => trivial
    | cons group around => trivial
  | cons use kept => exact h use rfl

namespace Course

variable {awaited : Bool} {read out : List Piece} {own : List Use}
  {around : List (Nat × List Use)}

/-- At every point the resolver has sent these texts, and its stack holds these operators. -/
theorem sends (h : Course awaited read out own around) :
    Sends 0 (read.map Piece.text) [] (out.map Piece.text) (onStack own ++ outside around) := by
  induction h with
  | start => exact .nil
  | operand _ ih =>
    rw [List.map_append, List.map_append]
    exact ih.append (sends_operand _)
  | @operator use _ _ popped kept around _ divides ih =>
    rw [List.map_append, List.map_append, ← map_lexeme]
    rw [onStack_append, List.append_assoc] at ih
    have tight : AtMost use.strength (popped.map fun use => (use.sign.lexeme, use.sign.operator)) :=
      List.forall_mem_map.2 divides.tight
    exact ih.append (sends_operator use.sign.spelled tight (above_onStack divides.loose))
  | opened _ ih =>
    rw [List.map_append]
    have sent := ih.append sends_open
    rw [Nat.zero_add, List.length_map, List.append_nil] at sent
    exact sent
  | closed _ ih =>
    rw [List.map_append, List.map_append, ← map_lexeme]
    exact ih.append sends_close

/-- An expression is read to its end, whatever waits. -/
theorem exists_pieces (expression : Expression) :
    ∀ {read out own around}, Course true read out own around →
      ∃ out' own', Course false (read ++ expression.pieces) out' own' around := by
  induction expression with
  | operand x =>
    intro read out own around h
    exact ⟨_, _, h.operand⟩
  | group inner ih =>
    intro read out own around h
    obtain ⟨out', own', h'⟩ := ih h.opened
    exact ⟨_, _, by simpa [Expression.pieces] using h'.closed⟩
  | unary sign inner ih =>
    intro read out own around h
    obtain ⟨popped, kept, rfl, divides⟩ := exists_divides sign.strength own
    have taken : Course true (read ++ [.operator ⟨true, sign⟩]) _ _ around := h.operator divides
    obtain ⟨out', own', h'⟩ := ih taken
    exact ⟨out', own', by simpa [Expression.pieces] using h'⟩
  | binary sign left right ihl ihr =>
    intro read out own around h
    obtain ⟨outl, ownl, hl⟩ := ihl h
    obtain ⟨popped, kept, rfl, divides⟩ := exists_divides sign.strength ownl
    have taken : Course true (read ++ left.pieces ++ [.operator ⟨false, sign⟩]) _ _ around :=
      hl.operator divides
    obtain ⟨out', own', h'⟩ := ihr taken
    exact ⟨out', own', by simpa [Expression.pieces] using h'⟩

theorem resolve_eq (h : Course false read out own []) :
    resolve (read.map Piece.text) = .ok ((out ++ own.map Piece.operator).map Piece.text) := by
  have sent := h.sends []
  rw [List.append_nil, outside, List.append_nil, resolveFrom, onStack, flush_waiting] at sent
  rw [resolve, sent, map_lexeme, List.map_append]
  rfl

end Course

end Infix
end FrontEnd
