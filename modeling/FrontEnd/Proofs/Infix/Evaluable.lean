import FrontEnd.Proofs.Infix.Nesting
import Mathlib.Data.List.Basic

/-!
# FrontEnd.Proofs.Infix.Evaluable

When what the resolver sends can be evaluated.

A prefix operator behind one that binds at least as tightly takes that one off the stack, which is
then sent before its operand. Evaluation goes on all the same if a value is there for it: the left
operand of some binary operator that still waits.

* `Infix.scopes` — the binary operators read inside each pair of open parentheses.
* `Infix.Waits`, `Infix.NeverShort` — such a binary operator waits, wherever one is needed.
* `Infix.Keeps`, `Infix.Tracks` — of the binary operators read there, enough are on the stack.
* `Infix.Course.evaluates`, `Infix.Course.runs_short` — what is sent is evaluated if no operand is
  ever missing, and cannot be evaluated otherwise.
* `Infix.resolveText_evaluable_iff` — so every expression resolves, and it depends on its prefix
  operators alone whether the answer can be evaluated.
-/

namespace FrontEnd
namespace Infix

/-- What a piece does to the binary operators read inside each pair of open parentheses, the
innermost first. -/
def Piece.scope (scopes : List (List Sign)) : Piece → List (List Sign)
  | operator ⟨false, sign⟩ => scopes.modifyHead (sign :: ·)
  | opened => [] :: scopes
  | closed => scopes.tail
  | operand _ | operator ⟨true, _⟩ => scopes

def scopes (pieces : List Piece) : List (List Sign) := pieces.foldl Piece.scope [[]]

/-- A binary operator further left is not taken off by a prefix operator of the strength: it is
inside the same parentheses and binds less tightly, or it is around them. -/
def Waits (before : List Piece) (strength : Nat) : Prop :=
  (∃ sign ∈ (scopes before).headD [], strength < sign.strength) ∨
    ∃ signs ∈ (scopes before).tail, signs ≠ []

/-- Where a prefix operator takes one off before its operand has come, a binary operator waits. -/
def NeverShort (pieces : List Piece) : Prop :=
  AtPrefixes (fun before strength => Severs before strength → Waits before strength) pieces

theorem scopes_append_singleton {read : List Piece} {piece : Piece} :
    scopes (read ++ [piece]) = piece.scope (scopes read) := by
  rw [scopes, List.foldl_append]
  rfl

/-- How many binary operators there are, each of which has its left operand on the stack of
values. -/
def lenders (uses : List Use) : Nat := uses.countP (!·.unary)

section Lenders

variable {a b uses : List Use} {use : Use}

theorem lenders_append : lenders (a ++ b) = lenders a + lenders b := List.countP_append

theorem lenders_cons : lenders (use :: uses) = lenders uses + bif use.unary then 0 else 1 := by
  cases h : use.unary <;> simp [lenders, h]

theorem lenders_pos_iff : 0 < lenders uses ↔ ∃ use ∈ uses, use.unary = false := by
  simp [lenders, List.countP_pos_iff]

end Lenders

section Popped

variable {α : Type} (meaning : Interpretation α)

/-- With a value more than they need, operators are evaluated whatever comes of their order. -/
theorem exists_evaluate_popped {popped : List Use} {spare : Nat} {values : List α}
    (hspare : popped ≠ [] → 0 < spare) (hlength : values.length = lenders popped + spare) :
    ∃ after, evaluate meaning (popped.map .operator) values = some after ∧
      after.length = spare := by
  induction popped generalizing values with
  | nil => exact ⟨values, rfl, by simpa [lenders] using hlength⟩
  | cons use popped ih =>
    have some_spare := hspare (List.cons_ne_nil _ _)
    have ih {values : List α} := @ih values fun _ => some_spare
    obtain ⟨unary, sign⟩ := use
    rw [lenders_cons] at hlength
    cases unary with
    | true =>
      obtain ⟨v, values, rfl⟩ : ∃ v rest, values = v :: rest :=
        List.exists_cons_of_length_pos (by omega)
      exact ih (by simpa using hlength)
    | false =>
      rw [cond_false, Nat.add_right_comm] at hlength
      match values with
      | [] => cases hlength
      | [_] =>
        have : 0 = lenders popped + spare := Nat.succ.inj hlength
        omega
      | w :: v :: values => exact ih (Nat.succ.inj hlength)

/-- Without one, the last of them lacks an operand, if not another before. -/
theorem evaluate_popped_eq_none {popped : List Use} {values : List α} (hne : popped ≠ [])
    (hlength : values.length = lenders popped) :
    evaluate meaning (popped.map .operator) values = none := by
  induction popped generalizing values with
  | nil => contradiction
  | cons use popped ih =>
    obtain ⟨unary, sign⟩ := use
    rw [lenders_cons] at hlength
    -- the operators behind it need a value each, and so there is one of them only if it has enough
    have behind {v : α} {values : List α} (hvalues : (v :: values).length = lenders popped) :
        evaluate meaning (popped.map .operator) (v :: values) = none := by
      refine ih ?_ hvalues
      rintro rfl
      cases hvalues
    match unary, values with
    | true, [] => rfl
    | true, v :: values => exact behind (by simpa using hlength)
    | false, [] => rfl
    | false, [v] => rfl
    | false, w :: v :: values => exact behind (by simpa using hlength)

end Popped

/-- The operators that wait inside a pair of parentheses, against the binary operators read there
and the operators that wait around it. -/
structure Keeps (signs : List Sign) (uses outer : List Use) : Prop where
  read : ∀ use ∈ uses, use.unary = false → use.sign ∈ signs
  /-- What was read and waits no longer made way for another one that binds less tightly, unless
  one waits outside. -/
  covered : ∀ sign ∈ signs,
    (∃ use ∈ uses, use.unary = false ∧ sign.strength ≤ use.strength) ∨
      ∃ use ∈ outer, use.unary = false
  ascending : uses.Pairwise (·.strength < ·.strength)

/-- The same of all parentheses, the innermost first. -/
inductive Tracks : List (List Sign) → List (List Use) → Prop
  | nil : Tracks [] []
  | cons {signs : List Sign} {scopes : List (List Sign)} {uses : List Use}
      {levels : List (List Use)} :
    Keeps signs uses levels.flatten → Tracks scopes levels →
    Tracks (signs :: scopes) (uses :: levels)

section Tracks

variable {signs : List Sign} {scopes : List (List Sign)} {uses popped kept outer : List Use}
  {levels : List (List Use)} {strength : Nat}

theorem Divides.lt_of_mem (h : Divides strength popped kept)
    (ascending : (popped ++ kept).Pairwise (·.strength < ·.strength)) :
    ∀ use ∈ kept, strength < use.strength := by
  cases kept with
  | nil => simp
  | cons first kept =>
    have lowest := h.loose first rfl
    obtain ⟨rest, _⟩ := List.pairwise_cons.1 (List.pairwise_append.1 ascending).2.1
    exact List.forall_mem_cons.2
      ⟨lowest, fun use huse => Nat.lt_trans lowest (rest use huse)⟩

/-- Somewhere a binary operator was read just if one waits. -/
theorem Tracks.exists_lender_iff (h : Tracks scopes levels) :
    (∃ signs ∈ scopes, signs ≠ []) ↔ ∃ use ∈ levels.flatten, use.unary = false := by
  induction h with
  | nil => simp
  | @cons signs scopes uses levels keeps _ ih =>
    rw [List.flatten_cons]
    constructor
    · intro h
      obtain ⟨others, hmem, hne⟩ := h
      rcases List.mem_cons.1 hmem with rfl | hmem
      · obtain ⟨sign, hsign⟩ := List.exists_mem_of_ne_nil _ hne
        rcases keeps.covered sign hsign with ⟨use, huse, hbinary, _⟩ | ⟨use, huse, hbinary⟩
        · exact ⟨use, List.mem_append_left _ huse, hbinary⟩
        · exact ⟨use, List.mem_append_right _ huse, hbinary⟩
      · obtain ⟨use, huse, hbinary⟩ := ih.1 ⟨others, hmem, hne⟩
        exact ⟨use, List.mem_append_right _ huse, hbinary⟩
    · intro h
      obtain ⟨use, hmem, hbinary⟩ := h
      rcases List.mem_append.1 hmem with huse | huse
      · exact ⟨signs, List.mem_cons_self, List.ne_nil_of_mem (keeps.read use huse hbinary)⟩
      · obtain ⟨others, hothers, hne⟩ := ih.2 ⟨use, huse, hbinary⟩
        exact ⟨others, List.mem_cons_of_mem _ hothers, hne⟩

/-- What was read tells whether a prefix operator of the strength leaves a binary operator on the
stack. -/
theorem Tracks.waits_iff (h : Tracks scopes levels)
    (keeps : Keeps signs (popped ++ kept) levels.flatten) (divides : Divides strength popped kept) :
    ((∃ sign ∈ signs, strength < sign.strength) ∨ ∃ signs ∈ scopes, signs ≠ []) ↔
      0 < lenders (kept ++ levels.flatten) := by
  rw [h.exists_lender_iff, lenders_pos_iff]
  constructor
  · intro h
    rcases h with ⟨sign, hsign, hlt⟩ | ⟨use, huse, hbinary⟩
    · rcases keeps.covered sign hsign with ⟨use, huse, hbinary, hle⟩ | ⟨use, huse, hbinary⟩
      · rcases List.mem_append.1 huse with hpopped | hkept
        · have := divides.tight use hpopped
          omega
        · exact ⟨use, List.mem_append_left _ hkept, hbinary⟩
      · exact ⟨use, List.mem_append_right _ huse, hbinary⟩
    · exact ⟨use, List.mem_append_right _ huse, hbinary⟩
  · intro h
    obtain ⟨use, huse, hbinary⟩ := h
    rcases List.mem_append.1 huse with hkept | houter
    · exact .inl ⟨use.sign, keeps.read use (List.mem_append_right _ hkept) hbinary,
        divides.lt_of_mem keeps.ascending use hkept⟩
    · exact .inr ⟨use, houter, hbinary⟩

theorem Keeps.nil : Keeps [] [] outer := ⟨by simp, by simp, .nil⟩

theorem Keeps.ascending_cons {use : Use} (keeps : Keeps signs (popped ++ kept) outer)
    (divides : Divides use.strength popped kept) :
    (use :: kept).Pairwise (·.strength < ·.strength) :=
  .cons (divides.lt_of_mem keeps.ascending) (List.pairwise_append.1 keeps.ascending).2.1

theorem Keeps.binary {sign : Sign} (keeps : Keeps signs (popped ++ kept) outer)
    (divides : Divides sign.strength popped kept) :
    Keeps (sign :: signs) (⟨false, sign⟩ :: kept) outer where
  read := by
    refine List.forall_mem_cons.2 ⟨fun _ => List.mem_cons_self, fun use huse hbinary => ?_⟩
    exact List.mem_cons_of_mem _ (keeps.read use (List.mem_append_right _ huse) hbinary)
  covered := by
    refine List.forall_mem_cons.2 ⟨.inl ⟨_, List.mem_cons_self, rfl, Nat.le_refl _⟩, ?_⟩
    intro other hother
    refine (keeps.covered other hother).imp_left fun ⟨use, huse, hbinary, hle⟩ => ?_
    rcases List.mem_append.1 huse with hpopped | hkept
    · exact ⟨_, List.mem_cons_self, rfl, Nat.le_trans hle (divides.tight use hpopped)⟩
    · exact ⟨use, List.mem_cons_of_mem _ hkept, hbinary, hle⟩
  ascending := keeps.ascending_cons divides

theorem Keeps.unary {sign : Sign} (keeps : Keeps signs (popped ++ kept) outer)
    (divides : Divides sign.strength popped kept)
    (waits : popped ≠ [] → 0 < lenders (kept ++ outer)) :
    Keeps signs (⟨true, sign⟩ :: kept) outer where
  read := by
    refine List.forall_mem_cons.2 ⟨nofun, fun use huse hbinary => ?_⟩
    exact keeps.read use (List.mem_append_right _ huse) hbinary
  covered := by
    intro other hother
    rcases keeps.covered other hother with ⟨use, huse, hbinary, hle⟩ | houter
    · rcases List.mem_append.1 huse with hpopped | hkept
      · -- it goes, but the one that waits instead binds less tightly still
        obtain ⟨lender, hlender, hbinary⟩ :=
          lenders_pos_iff.1 (waits (List.ne_nil_of_mem hpopped))
        rcases List.mem_append.1 hlender with hkept | houter
        · have below := divides.lt_of_mem keeps.ascending lender hkept
          have above := divides.tight use hpopped
          exact .inl ⟨lender, List.mem_cons_of_mem _ hkept, hbinary, by omega⟩
        · exact .inr ⟨lender, houter, hbinary⟩
      · exact .inl ⟨use, List.mem_cons_of_mem _ hkept, hbinary, hle⟩
    · exact .inr houter
  ascending := keeps.ascending_cons divides

end Tracks

namespace Course

variable {awaited : Bool} {read out : List Piece} {own popped kept : List Use}
  {around : List (Nat × List Use)} {strength : Nat} {α : Type} (meaning : Interpretation α)

/-- The operators that wait, by the parentheses they are inside of. -/
def levels (own : List Use) (around : List (Nat × List Use)) : List (List Use) :=
  own :: around.map Prod.snd

theorem waits_of_severs (h : Course true read out (popped ++ kept) around)
    (tracks : Tracks (scopes read) (levels (popped ++ kept) around))
    (divides : Divides strength popped kept) :
    (Severs read strength → Waits read strength) ↔
      (popped ≠ [] → 0 < lenders (kept ++ (around.map Prod.snd).flatten)) := by
  rw [h.severs_iff divides]
  generalize hscopes : scopes read = all at tracks
  cases tracks with
  | cons keeps tracks =>
    rw [Waits, hscopes, ← tracks.waits_iff keeps divides]
    rfl

theorem tracks (h : Course awaited read out own around) (fed : NeverShort read) :
    Tracks (scopes read) (levels own around) := by
  induction h with
  | start => exact .cons .nil .nil
  | operand _ ih =>
    rw [scopes_append_singleton]
    exact ih (atEach_append_singleton.1 fed).1
  | @operator use _ _ popped kept _ h divides ih =>
    obtain ⟨before, last⟩ := atEach_append_singleton.1 fed
    have tracks := ih before
    rw [scopes_append_singleton]
    obtain ⟨unary, sign⟩ := use
    cases unary with
    | true =>
      have waits := (h.waits_of_severs tracks divides).1 (last sign rfl)
      generalize scopes _ = all at tracks ⊢
      cases tracks with
      | cons keeps tracks => exact .cons (keeps.unary divides waits) tracks
    | false =>
      generalize scopes _ = all at tracks ⊢
      cases tracks with
      | cons keeps tracks => exact .cons (keeps.binary divides) tracks
  | opened _ ih =>
    rw [scopes_append_singleton]
    exact .cons .nil (ih (atEach_append_singleton.1 fed).1)
  | closed _ ih =>
    rw [scopes_append_singleton]
    have tracks := ih (atEach_append_singleton.1 fed).1
    generalize scopes _ = all at tracks ⊢
    cases tracks with
    | cons _ tracks => exact tracks

/-- The values are the left operands of the binary operators that wait, and one more behind an
operand. -/
theorem evaluates (h : Course awaited read out own around) (fed : NeverShort read) :
    ∃ values, evaluate meaning out [] = some values ∧
      values.length = lenders (levels own around).flatten + bif awaited then 0 else 1 := by
  induction h with
  | start => exact ⟨[], rfl, rfl⟩
  | @operand x _ _ _ _ _ ih =>
    obtain ⟨values, hvalues, hlength⟩ := ih (atEach_append_singleton.1 fed).1
    refine ⟨meaning.operand x.text :: values, ?_, congrArg (· + 1) hlength⟩
    rw [evaluate_append, hvalues]
    rfl
  | @operator use read out popped kept around h divides ih =>
    obtain ⟨before, last⟩ := atEach_append_singleton.1 fed
    obtain ⟨values, hvalues, hlength⟩ := ih before
    rw [evaluate_append, hvalues, Option.bind_some]
    have waits : popped ≠ [] →
        0 < lenders (kept ++ (around.map Prod.snd).flatten) + bif use.unary then 0 else 1 := by
      obtain ⟨unary, sign⟩ := use
      cases unary with
      | true => exact (h.waits_of_severs (h.tracks before) divides).1 (last sign rfl)
      | false => exact fun _ => Nat.succ_pos _
    obtain ⟨after, hafter, hspare⟩ := exists_evaluate_popped meaning waits (by
      rw [hlength, levels, List.flatten_cons, List.append_assoc, lenders_append, Nat.add_assoc])
    refine ⟨after, hafter, ?_⟩
    rw [hspare, levels, List.flatten_cons, List.cons_append, lenders_cons]
    rfl
  | opened _ ih => exact ih (atEach_append_singleton.1 fed).1
  | @closed _ _ own outer _ around _ ih =>
    obtain ⟨values, hvalues, hlength⟩ := ih (atEach_append_singleton.1 fed).1
    rw [evaluate_append, hvalues, Option.bind_some]
    refine exists_evaluate_popped meaning (fun _ => Nat.succ_pos _) ?_
    rw [hlength, levels, List.flatten_cons, lenders_append, Nat.add_assoc]
    rfl

/-- Once an operand is missing, the rest is of no help. -/
theorem runs_short (h : Course awaited read out own around) (short : ¬NeverShort read) :
    evaluate meaning out [] = none := by
  induction h with
  | start => exact absurd atEach_nil short
  | operand _ ih =>
    have before := fun fed => short (atEach_append_singleton.2 ⟨fed, nofun⟩)
    rw [evaluate_append, ih before]
    rfl
  | @operator use read out popped kept around h divides ih =>
    rw [evaluate_append]
    by_cases fed : NeverShort read
    · obtain ⟨values, hvalues, hlength⟩ := h.evaluates meaning fed
      rw [hvalues, Option.bind_some]
      have missing := fun last => short (atEach_append_singleton.2 ⟨fed, last⟩)
      obtain ⟨unary, sign⟩ := use
      cases unary with
      | true =>
        have none_waits := mt (h.waits_of_severs (h.tracks fed) divides).2 fun waits =>
          missing fun _ hsign => by cases hsign; exact waits
        obtain ⟨hne, hzero⟩ := Classical.not_imp.1 none_waits
        refine evaluate_popped_eq_none meaning hne ?_
        rw [hlength, levels, List.flatten_cons, List.append_assoc, lenders_append,
          Nat.eq_zero_of_not_pos hzero]
        rfl
      | false => exact absurd nofun missing
    · rw [ih fed]
      rfl
  | opened _ ih => exact ih fun fed => short (atEach_append_singleton.2 ⟨fed, nofun⟩)
  | closed _ ih =>
    have before := fun fed => short (atEach_append_singleton.2 ⟨fed, nofun⟩)
    rw [evaluate_append, ih before]
    rfl

end Course

/-- Parentheses are not sent. -/
def Piece.isSent : Piece → Bool
  | operand _ | operator _ => true
  | opened | closed => false

/-- What the resolver sends of the pieces altogether, every operator with the use that it has
among them. -/
def Sent (pieces sent : List Piece) : Prop :=
  ∃ out own, Course false pieces out own [] ∧ sent = out ++ own.map .operator

namespace Course

variable {awaited : Bool} {read out : List Piece} {own : List Use}
  {around : List (Nat × List Use)}

/-- Nothing is lost or sent twice. -/
theorem perm (h : Course awaited read out own around) :
    (out ++ (levels own around).flatten.map Piece.operator).Perm (read.filter Piece.isSent) := by
  induction h with
  | start => exact .nil
  | operand _ ih =>
    rw [List.append_assoc, List.filter_append]
    exact perm_append_singleton ih
  | operator _ _ ih =>
    rw [List.filter_append]
    refine perm_append_singleton ?_
    simpa [levels] using ih
  | opened _ ih => simpa [levels, Piece.isSent] using ih
  | closed _ ih => simpa [levels, Piece.isSent] using ih

end Course

/-- Every expression resolves, to its operands and operators in another order. The answer can be
evaluated, each operator with as many operands as it has in the expression, if and only if a
binary operator waits wherever a prefix operator takes one off that still lacks its operand. And
where none does so, the answer is the postorder of an expression written just the same. -/
theorem resolveText_evaluable_iff (expression : Expression) (text : String)
    (h : Text.words text.toList = expression.pieces.map Piece.text) :
    (∃ sent, Sent expression.pieces sent) ∧
      ∀ sent : List Piece, Sent expression.pieces sent →
        sent.Perm (expression.pieces.filter Piece.isSent) ∧
        resolveText text = .ok (spaced (sent.map Piece.text)) ∧
        (∀ {α : Type} (meaning : Interpretation α),
          (∃ v, evaluate meaning sent [] = some [v]) ↔ NeverShort expression.pieces) ∧
        (NeverSevers expression.pieces →
          ∃ nested : Expression, nested.pieces = expression.pieces ∧ sent = nested.postorder ∧
            ∀ {α : Type} (meaning : Interpretation α),
              evaluate meaning sent [] = some [nested.value meaning]) := by
  constructor
  · obtain ⟨out, own, course⟩ := Course.exists_pieces expression .start
    exact ⟨_, out, own, course, rfl⟩
  intro sent hsent
  obtain ⟨out, own, course, rfl⟩ := hsent
  refine ⟨?_, ?_, ?_, ?_⟩
  · simpa [Course.levels] using course.perm
  · rw [resolveText, h, course.resolve_eq]
    rfl
  · intro α meaning
    rw [evaluate_append]
    constructor
    · intro h
      obtain ⟨v, hv⟩ := h
      by_contra short
      rw [course.runs_short meaning short] at hv
      cases hv
    · intro fed
      obtain ⟨values, hvalues, hlength⟩ := course.evaluates meaning fed
      have whole : values.length = lenders own + 1 := by simpa [Course.levels] using hlength
      obtain ⟨after, hafter, hone⟩ :=
        exists_evaluate_popped meaning (fun _ => Nat.one_pos) whole
      obtain ⟨v, rfl⟩ := List.length_eq_one_iff.1 hone
      exact ⟨v, by rw [hvalues]; exact hafter⟩
  · intro nested
    obtain ⟨expression', hpieces, hsent⟩ := course.exists_postorder nested
    refine ⟨expression', hpieces, hsent.symm, fun meaning => ?_⟩
    rw [← hsent, evaluate_postorder]

/-- The minus takes the times off the stack, but the assignment waits: its left side stands in for
the operand that the times lacks. -/
theorem resolveText_evaluable_times_minus :
    ∃ expression : Expression,
      Text.words "c = a * - b".toList = expression.pieces.map Piece.text ∧
      NeverShort expression.pieces ∧ resolveText "c = a * - b" = .ok "c a * b - = " ∧
      ∃ sent : List Piece, spaced (sent.map Piece.text) = "c a * b - = " ∧
        ∀ {α : Type} (meaning : Interpretation α), ∃ v, evaluate meaning sent [] = some [v] := by
  obtain ⟨a, ha⟩ := exists_operand (by decide : "a" ≠ "") rfl
  obtain ⟨b, hb⟩ := exists_operand (by decide : "b" ≠ "") rfl
  obtain ⟨c, hc⟩ := exists_operand (by decide : "c" ≠ "") rfl
  let assign : Sign := ⟨"=", .assign, by decide⟩
  let times : Sign := ⟨"*", .multiply, by decide⟩
  let minus : Sign := ⟨"-", .subtract, by decide⟩
  let expression : Expression :=
    .binary assign (.operand c) (.binary times (.operand a) (.unary minus (.operand b)))
  have hwords : Text.words "c = a * - b".toList = expression.pieces.map Piece.text := by
    have : expression.pieces.map Piece.text = ["c", "=", "a", "*", "-", "b"] := by
      simp [expression, Expression.pieces, Piece.text, ha, hb, hc, assign, times, minus]
    rw [this]
    decide +kernel
  have fed : NeverShort expression.pieces := by
    simp only [NeverShort, AtPrefixes, expression, Expression.pieces, List.cons_append,
      List.nil_append, atEach_cons, atEach_nil, reduceCtorEq, Piece.operator.injEq, Use.mk.injEq,
      Bool.false_eq_true, false_and, false_implies, implies_true, and_true, true_and]
    rintro _ rfl _
    exact .inl ⟨assign, List.mem_cons_of_mem times (List.mem_singleton_self assign), by decide⟩
  obtain ⟨⟨sent, hsent⟩, answers⟩ := resolveText_evaluable_iff expression _ hwords
  obtain ⟨_, hresolve, hevaluate, _⟩ := answers sent hsent
  have resolved : resolveText "c = a * - b" = .ok "c a * b - = " := by decide +kernel
  exact ⟨expression, hwords, fed, resolved, sent, Except.ok.inj (hresolve.symm.trans resolved),
    fun meaning => (hevaluate meaning).2 fed⟩

/-- The second negation takes the first one off the stack before there is any operand, and nothing
waits: whatever the operators of the answer are taken for, it cannot be evaluated. -/
theorem resolveText_negation_of_negation :
    ∃ expression : Expression, expression.pieces.map Piece.text = ["!", "!", "a"] ∧
      resolve ["!", "!", "a"] = .ok ["!", "a", "!"] ∧ resolveText "! ! a" = .ok "! a ! " ∧
      ∀ sent : List Piece, sent.map Piece.text = ["!", "a", "!"] →
        ∀ (α : Type) (meaning : Interpretation α) (v : α), evaluate meaning sent [] ≠ some [v] := by
  obtain ⟨a, ha⟩ := exists_operand (by decide : "a" ≠ "") rfl
  let bang : Sign := ⟨"!", .bang, by decide⟩
  refine ⟨.unary bang (.unary bang (.operand a)), ?_, by decide +kernel,
    by decide +kernel, ?_⟩
  · simp [Expression.pieces, Piece.text, ha, bang]
  · intro sent hsent α meaning v
    cases sent with
    | nil => cases hsent
    | cons first rest =>
      have htext : first.text = "!" := (List.cons.inj hsent).1
      cases first with
      | operand x => exact absurd (List.mem_singleton.2 htext) (x.not_operator .bang)
      | operator use =>
        obtain ⟨unary, sign⟩ := use
        intro hv
        cases unary <;> cases hv
      | opened => exact absurd htext (by decide)
      | closed => exact absurd htext (by decide)

end Infix
end FrontEnd
