import FrontEnd.Proofs.AtEach
import FrontEnd.Proofs.Infix.Course

/-!
# FrontEnd.Proofs.Infix.Nesting

When the resolver gives every operator its own operands.

* `Infix.Severs before strength` — a prefix operator of the strength takes the operator right in
  front of it off the stack.
* `Infix.NeverSevers` — no prefix operator does so.
* `Infix.Context` — an expression with a hole in it, as the resolver has read it so far.
* `Infix.Course.exists_postorder` — then what is sent is the postorder of an expression that is
  written as it was read.
-/

namespace FrontEnd
namespace Infix

/-- All prefix operators are as `p` says, given the pieces in front and their strength. -/
def AtPrefixes (p : List Piece → Nat → Prop) (pieces : List Piece) : Prop :=
  AtEach (fun before piece => ∀ sign, piece = .operator ⟨true, sign⟩ → p before sign.strength)
    pieces

/-- Right in front is an operator that binds at least as tightly, and so is sent at once, before
its operand. -/
def Severs (before : List Piece) (strength : Nat) : Prop :=
  ∃ front use, before = front ++ [.operator use] ∧ use.strength ≤ strength

def NeverSevers (pieces : List Piece) : Prop :=
  AtPrefixes (fun before strength => ¬Severs before strength) pieces

theorem Divides.ne_nil_iff {strength : Nat} {popped kept rest : List Use} {use : Use}
    (h : Divides strength popped kept) (hown : popped ++ kept = use :: rest) :
    popped ≠ [] ↔ use.strength ≤ strength := by
  cases popped with
  | nil =>
    rw [List.nil_append] at hown
    have loose := h.loose use (by rw [hown]; rfl)
    simpa using loose
  | cons first popped =>
    have tight := h.tight first List.mem_cons_self
    rw [List.cons_append] at hown
    rw [(List.cons.inj hown).1] at tight
    simpa using tight

namespace Course

variable {awaited : Bool} {read out : List Piece} {own popped kept : List Use}
  {around : List (Nat × List Use)} {strength : Nat}

/-- Where an operand is awaited, the operator on top is the one right in front. -/
theorem severs_iff (h : Course true read out (popped ++ kept) around)
    (divides : Divides strength popped kept) : Severs read strength ↔ popped ≠ [] := by
  generalize hown : popped ++ kept = own at h
  cases h with
  | start =>
    obtain ⟨rfl, rfl⟩ := List.append_eq_nil_iff.1 hown
    simp [Severs]
  | @operator use before =>
    rw [divides.ne_nil_iff hown]
    constructor
    · intro h
      obtain ⟨front, other, heq, hle⟩ := h
      obtain ⟨_, huse⟩ := List.append_inj' heq rfl
      cases huse
      exact hle
    · exact fun hle => ⟨before, use, rfl, hle⟩
  | @opened before =>
    obtain ⟨rfl, rfl⟩ := List.append_eq_nil_iff.1 hown
    refine iff_of_false (fun h => ?_) (by simp)
    obtain ⟨front, use, heq, _⟩ := h
    cases (List.append_inj' heq rfl).2

end Course

/-- An expression with a hole, from the hole outwards. -/
inductive Context where
  | hole
  | group (index : Nat) (outer : Context)
  | unary (sign : Sign) (outer : Context)
  | binary (sign : Sign) (left : Expression) (outer : Context)

namespace Context

/-- The pieces in front of the hole. -/
def before : Context → List Piece
  | hole => []
  | group _ outer => outer.before ++ [.opened]
  | unary sign outer => outer.before ++ [.operator ⟨true, sign⟩]
  | binary sign left outer => outer.before ++ left.pieces ++ [.operator ⟨false, sign⟩]

/-- What the resolver has sent of them: the operands on the left. -/
def sent : Context → List Piece
  | hole => []
  | group _ outer => outer.sent
  | unary _ outer => outer.sent
  | binary _ left outer => outer.sent ++ left.postorder

/-- The operators that wait inside the innermost parentheses. -/
def own : Context → List Use
  | hole => []
  | group _ _ => []
  | unary sign outer => ⟨true, sign⟩ :: outer.own
  | binary sign _ outer => ⟨false, sign⟩ :: outer.own

/-- Those that wait around the open parentheses. -/
def around : Context → List (Nat × List Use)
  | hole => []
  | group index outer => (index, outer.own) :: outer.around
  | unary _ outer => outer.around
  | binary _ _ outer => outer.around

/-- Operators that are taken off the stack take the expression in the hole for their operand. -/
theorem exists_popped (context : Context) (filler : Expression) {popped kept : List Use}
    (h : context.own = popped ++ kept) :
    ∃ (context' : Context) (filler' : Expression),
      context'.own = kept ∧ context'.around = context.around ∧
      context'.before ++ filler'.pieces = context.before ++ filler.pieces ∧
      context'.sent ++ filler'.postorder =
        context.sent ++ filler.postorder ++ popped.map .operator := by
  induction popped generalizing context filler with
  | nil => exact ⟨context, filler, h, rfl, rfl, by simp⟩
  | cons use popped ih =>
    cases context with
    | hole => cases h
    | group => cases h
    | unary sign outer =>
      obtain ⟨rfl, hrest⟩ := List.cons.inj h
      obtain ⟨context', filler', hown, haround, hbefore, hsent⟩ :=
        ih outer (.unary sign filler) hrest
      refine ⟨context', filler', hown, haround, ?_, ?_⟩
      · simpa [before, Expression.pieces] using hbefore
      · simpa [sent, Expression.postorder] using hsent
    | binary sign left outer =>
      obtain ⟨rfl, hrest⟩ := List.cons.inj h
      obtain ⟨context', filler', hown, haround, hbefore, hsent⟩ :=
        ih outer (.binary sign left filler) hrest
      refine ⟨context', filler', hown, haround, ?_, ?_⟩
      · simpa [before, Expression.pieces] using hbefore
      · simpa [sent, Expression.postorder] using hsent

/-- The point of the run at which the hole, or the expression in it, has been read. -/
def Shows (context : Context) (awaited : Bool) (read out : List Piece) : Prop :=
  match awaited with
  | true => read = context.before ∧ out = context.sent
  | false => ∃ filler : Expression,
      read = context.before ++ filler.pieces ∧ out = context.sent ++ filler.postorder

end Context

namespace Course

variable {awaited : Bool} {read out : List Piece} {own : List Use}
  {around : List (Nat × List Use)}

theorem exists_context (h : Course awaited read out own around) (nested : NeverSevers read) :
    ∃ context : Context, own = context.own ∧ around = context.around ∧
      context.Shows awaited read out := by
  induction h with
  | start => exact ⟨.hole, rfl, rfl, rfl, rfl⟩
  | @operand x _ _ _ _ _ ih =>
    obtain ⟨context, rfl, rfl, rfl, rfl⟩ := ih (atEach_append_singleton.1 nested).1
    exact ⟨context, rfl, rfl, .operand x, rfl, rfl⟩
  | @operator use _ _ popped kept _ h divides ih =>
    obtain ⟨before, last⟩ := atEach_append_singleton.1 nested
    obtain ⟨context, hown, rfl, shows⟩ := ih before
    obtain ⟨unary, sign⟩ := use
    cases unary with
    | true =>
      obtain ⟨rfl, rfl⟩ := shows
      obtain rfl : popped = [] := Classical.byContradiction fun hne =>
        last sign rfl ((h.severs_iff divides).2 hne)
      exact ⟨.unary sign context, congrArg _ hown, rfl, rfl, by simp [Context.sent]⟩
    | false =>
      obtain ⟨filler, rfl, rfl⟩ := shows
      obtain ⟨context', filler', rfl, haround, hbefore, hsent⟩ :=
        context.exists_popped filler hown.symm
      refine ⟨.binary sign filler' context', rfl, haround.symm, ?_, hsent.symm⟩
      rw [Context.before, hbefore]
  | opened _ ih =>
    obtain ⟨context, rfl, rfl, rfl, rfl⟩ := ih (atEach_append_singleton.1 nested).1
    exact ⟨.group _ context, rfl, rfl, rfl, rfl⟩
  | closed _ ih =>
    obtain ⟨context, hown, haround, filler, rfl, rfl⟩ := ih (atEach_append_singleton.1 nested).1
    obtain ⟨context', filler', hnone, haround', hbefore, hsent⟩ :=
      context.exists_popped filler (hown.symm.trans (List.append_nil _).symm)
    rw [← haround] at haround'
    -- with nothing waiting inside, the hole is right behind the parenthesis
    cases context' with
    | hole => cases haround'
    | unary => cases hnone
    | binary => cases hnone
    | group index outer =>
      cases haround'
      refine ⟨outer, rfl, rfl, .group filler', ?_, hsent.symm⟩
      rw [← hbefore]
      simp [Context.before, Expression.pieces]

/-- What the resolver sends is the postorder of an expression, and it is written as it was read:
every operator has its own operands, and is sent behind them. -/
theorem exists_postorder (h : Course false read out own []) (nested : NeverSevers read) :
    ∃ expression : Expression,
      expression.pieces = read ∧ expression.postorder = out ++ own.map .operator := by
  obtain ⟨context, rfl, haround, filler, rfl, rfl⟩ := h.exists_context nested
  obtain ⟨context', filler', hnone, haround', hbefore, hsent⟩ :=
    context.exists_popped filler (List.append_nil _).symm
  rw [← haround] at haround'
  cases context' with
  | hole => exact ⟨filler', hbefore, hsent⟩
  | unary => cases hnone
  | binary => cases hnone
  | group => cases haround'

end Course

end Infix
end FrontEnd
