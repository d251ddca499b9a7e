import FrontEnd.Proofs.AtEach
import FrontEnd.Proofs.Infix.Parentheses
import FrontEnd.Proofs.Infix.Postorder
import FrontEnd.Proofs.Infix.Runs

/-!
# FrontEnd.Proofs.Infix.Account

What the resolver has sent and what waits, with the place of every token.

Tokens that look alike are told apart by their places. The stack forgets the places of operators, so
an account of the run is kept beside it.

* `Infix.Occurrence`, `Infix.occurrences` — tokens with their places.
* `Infix.Account read sent waiting` — what was sent of the tokens read, and what waits. The resolver
  runs so (`Infix.Account.runs`, `Infix.Account.exists_runs`).
* `Infix.Account.perm`, `Infix.Account.operands`, `Infix.Account.descending` — nothing read is lost,
  operands keep their order, and what waits lies the deeper the earlier it was read.
* `Infix.Account.outside_group` — behind a group nothing waits that was read inside it.
-/

namespace FrontEnd
namespace Infix

def isOperator (token : String) : Bool := (InfixOperator.ofLexeme? token).isSome

def isParenthesis (token : String) : Bool := token = "(" || token = ")"

def isOperand (token : String) : Bool := !isOperator token && !isParenthesis token

/-- A token and its place among the tokens. -/
structure Occurrence where
  token : String
  place : Nat
  deriving DecidableEq

def occurrences (tokens : List String) : List Occurrence :=
  tokens.mapIdx fun place token => ⟨token, place⟩

namespace Occurrence

def isOperator (o : Occurrence) : Bool := Infix.isOperator o.token

def isOperand (o : Occurrence) : Bool := Infix.isOperand o.token

/-- An operand or an operator. -/
def isSent (o : Occurrence) : Bool := !isParenthesis o.token

/-- An operator or an open parenthesis as the stack has it. -/
def pending (o : Occurrence) : Pending :=
  match InfixOperator.ofLexeme? o.token with
  | some operator => .operator o.token operator
  | none => .opened o.place

end Occurrence

def stackOf (waiting : List Occurrence) : Stack := waiting.map Occurrence.pending

/-- An operator of the strength takes `popped` off the stack, and then finds `kept`. -/
structure Parts (strength : Nat) (popped kept : List Occurrence) : Prop where
  tight : ∀ o ∈ popped, ∃ operator, InfixOperator.ofLexeme? o.token = some operator ∧
    operator.strength ≤ strength
  loose : Above strength (stackOf kept)

/-- The resolver's run over the tokens read, with the occurrences sent, in their order, and those
that wait, the last first. -/
inductive Account : List String → List Occurrence → List Occurrence → Prop
  | start : Account [] [] []
  | operand {read : List String} {sent waiting : List Occurrence} {token : String} :
    Account read sent waiting → isOperand token = true →
    Account (read ++ [token]) (sent ++ [⟨token, read.length⟩]) waiting
  | operator {read : List String} {sent popped kept : List Occurrence} {token : String}
      {operator : InfixOperator} :
    Account read sent (popped ++ kept) → InfixOperator.ofLexeme? token = some operator →
    Parts operator.strength popped kept →
    Account (read ++ [token]) (sent ++ popped) (⟨token, read.length⟩ :: kept)
  | opened {read : List String} {sent waiting : List Occurrence} :
    Account read sent waiting → Account (read ++ ["("]) sent (⟨"(", read.length⟩ :: waiting)
  | closed {read : List String} {sent popped kept : List Occurrence} {place : Nat} :
    Account read sent (popped ++ ⟨"(", place⟩ :: kept) → (∀ o ∈ popped, o.isOperator = true) →
    Account (read ++ [")"]) (sent ++ popped) kept

section Tokens

variable {token : String} {tokens : List String} {o : Occurrence}

theorem isOperator_iff :
    isOperator token = true ↔ ∃ operator, InfixOperator.ofLexeme? token = some operator :=
  Option.isSome_iff_exists

theorem not_isParenthesis_of_isOperator (h : isOperator token = true) :
    isParenthesis token = false := by
  have other {parenthesis : String} (hp : isOperator parenthesis = false) :
      token ≠ parenthesis := by
    rintro rfl
    rw [h] at hp
    cases hp
  have ho : token ≠ "(" := other (by decide)
  have hc : token ≠ ")" := other (by decide)
  simp [isParenthesis, ho, hc]

theorem not_isOperand_of_isOperator (h : isOperator token = true) : isOperand token = false := by
  simp [isOperand, h]

theorem not_isParenthesis_of_isOperand (h : isOperand token = true) :
    isParenthesis token = false := by
  rw [isOperand, Bool.and_eq_true] at h
  simpa using h.2

theorem isOperand_iff : isOperand token = true ↔
    InfixOperator.ofLexeme? token = none ∧ token ≠ "(" ∧ token ≠ ")" := by
  simp [isOperand, isOperator, isParenthesis]

theorem occurrences_append_singleton :
    occurrences (tokens ++ [token]) = occurrences tokens ++ [⟨token, tokens.length⟩] :=
  List.mapIdx_concat

theorem map_token_occurrences : (occurrences tokens).map Occurrence.token = tokens := by
  induction tokens using List.reverseRecOn with
  | nil => rfl
  | append_singleton tokens token ih =>
    rw [occurrences_append_singleton, List.map_append, ih]
    rfl

theorem mem_occurrences_iff : o ∈ occurrences tokens ↔ tokens[o.place]? = some o.token := by
  rw [occurrences, List.mem_mapIdx, List.getElem?_eq_some_iff]
  constructor
  · rintro ⟨i, hi, rfl⟩
    exact ⟨hi, rfl⟩
  · rintro ⟨hi, htoken⟩
    exact ⟨o.place, hi, by rw [htoken]⟩

end Tokens

section Stacks

variable {strength : Nat} {waiting popped kept : List Occurrence} {o : Occurrence}

theorem pending_of_isOperator (h : o.isOperator = true) :
    ∃ operator, InfixOperator.ofLexeme? o.token = some operator ∧
      o.pending = .operator o.token operator := by
  obtain ⟨operator, hoperator⟩ := isOperator_iff.1 h
  exact ⟨operator, hoperator, by rw [Occurrence.pending, hoperator]⟩

theorem pending_of_not_isOperator (h : ¬o.isOperator = true) : o.pending = .opened o.place := by
  have hnone : InfixOperator.ofLexeme? o.token = none := Option.not_isSome_iff_eq_none.1 h
  rw [Occurrence.pending, hnone]

theorem exists_parts (strength : Nat) (waiting : List Occurrence) :
    ∃ popped kept, waiting = popped ++ kept ∧ Parts strength popped kept := by
  induction waiting with
  | nil => exact ⟨[], [], rfl, nofun, trivial⟩
  | cons o waiting ih =>
    by_cases ho : o.isOperator = true
    · obtain ⟨operator, hoperator, hpending⟩ := pending_of_isOperator ho
      by_cases hle : operator.strength ≤ strength
      · obtain ⟨popped, kept, rfl, tight, loose⟩ := ih
        exact ⟨o :: popped, kept, rfl, List.forall_mem_cons.2 ⟨⟨operator, hoperator, hle⟩, tight⟩,
          loose⟩
      · refine ⟨[], o :: waiting, rfl, nofun, ?_⟩
        rw [stackOf, List.map_cons, hpending]
        exact Nat.lt_of_not_le hle
    · refine ⟨[], o :: waiting, rfl, nofun, ?_⟩
      rw [stackOf, List.map_cons, pending_of_not_isOperator ho]
      trivial

theorem Parts.isOperator (h : Parts strength popped kept) : ∀ o ∈ popped, o.isOperator = true := by
  intro o ho
  obtain ⟨operator, hoperator, -⟩ := h.tight o ho
  exact isOperator_iff.2 ⟨operator, hoperator⟩

theorem stackOf_append : stackOf (popped ++ kept) = stackOf popped ++ stackOf kept :=
  List.map_append

/-- Operators wait on the stack with what the lookup makes of them. -/
theorem exists_stackOf_eq (h : ∀ o ∈ popped, o.isOperator = true) :
    ∃ pending, stackOf popped = Infix.waiting pending ∧
      pending.map Prod.fst = popped.map Occurrence.token ∧
      ∀ p ∈ pending, ∃ o ∈ popped, InfixOperator.ofLexeme? o.token = some p.2 := by
  induction popped with
  | nil => exact ⟨[], rfl, rfl, nofun⟩
  | cons o popped ih =>
    obtain ⟨ho, hpopped⟩ := List.forall_mem_cons.1 h
    obtain ⟨operator, hlookup, hpending⟩ := pending_of_isOperator ho
    obtain ⟨pending, hstack, hlexemes, hoperators⟩ := ih hpopped
    refine ⟨(o.token, operator) :: pending, ?_, congrArg (o.token :: ·) hlexemes,
      List.forall_mem_cons.2 ⟨⟨o, List.mem_cons_self, hlookup⟩, fun p hp => ?_⟩⟩
    · rw [stackOf, List.map_cons, hpending, ← stackOf, hstack]
      rfl
    · obtain ⟨other, hother, hlookup⟩ := hoperators p hp
      exact ⟨other, List.mem_cons_of_mem _ hother, hlookup⟩

theorem Parts.popTighter_eq (h : Parts strength popped kept) :
    popTighter strength (stackOf (popped ++ kept)) =
      (popped.map Occurrence.token, stackOf kept) := by
  obtain ⟨pending, hstack, hlexemes, hoperators⟩ := exists_stackOf_eq h.isOperator
  have tight : AtMost strength pending := by
    intro p hp
    obtain ⟨o, ho, hlookup⟩ := hoperators p hp
    obtain ⟨operator, hoperator, hle⟩ := h.tight o ho
    cases hlookup.symm.trans hoperator
    exact hle
  rw [stackOf_append, hstack, popTighter_waiting tight h.loose, hlexemes]

theorem popGroup?_eq (h : ∀ o ∈ popped, o.isOperator = true) (ho : ¬o.isOperator = true) :
    popGroup? (stackOf (popped ++ o :: kept)) =
      some (popped.map Occurrence.token, stackOf kept) := by
  obtain ⟨pending, hstack, hlexemes, -⟩ := exists_stackOf_eq h
  rw [stackOf_append, hstack, stackOf, List.map_cons, pending_of_not_isOperator ho,
    popGroup?_waiting, hlexemes, stackOf]

theorem places_stackOf_append (h : ∀ o ∈ popped, o.isOperator = true) :
    places (stackOf (popped ++ kept)) = places (stackOf kept) := by
  induction popped with
  | nil => rfl
  | cons o popped ih =>
    obtain ⟨ho, hpopped⟩ := List.forall_mem_cons.1 h
    obtain ⟨operator, -, hpending⟩ := pending_of_isOperator ho
    rw [List.cons_append, stackOf, List.map_cons, hpending, places_operator]
    exact ih hpopped

theorem places_stackOf_group (h : ∀ o ∈ popped, o.isOperator = true) (ho : ¬o.isOperator = true) :
    places (stackOf (popped ++ o :: kept)) = o.place :: places (stackOf kept) := by
  rw [places_stackOf_append h, stackOf, List.map_cons, pending_of_not_isOperator ho]
  rfl

/-- What waits above the last open parenthesis, if there is one. -/
theorem exists_group (waiting : List Occurrence) :
    (∃ popped o kept, waiting = popped ++ o :: kept ∧ (∀ o ∈ popped, o.isOperator = true) ∧
      ¬o.isOperator = true) ∨ ∀ o ∈ waiting, o.isOperator = true := by
  induction waiting with
  | nil => exact .inr nofun
  | cons first waiting ih =>
    by_cases hfirst : first.isOperator = true
    · rcases ih with ⟨popped, o, kept, rfl, hpopped, ho⟩ | hall
      · exact .inl ⟨first :: popped, o, kept, rfl, List.forall_mem_cons.2 ⟨hfirst, hpopped⟩, ho⟩
      · exact .inr (List.forall_mem_cons.2 ⟨hfirst, hall⟩)
    · exact .inl ⟨[], first, waiting, rfl, nofun, hfirst⟩

theorem popGroup?_eq_none (h : ∀ o ∈ waiting, o.isOperator = true) :
    popGroup? (stackOf waiting) = none := by
  have hplaces : places (stackOf (waiting ++ [])) = [] := places_stackOf_append h
  rw [List.append_nil] at hplaces
  exact popGroup?_of_none hplaces

/-- At the end all operators are sent, and a parenthesis is an error. -/
theorem flush_eq_ok_iff {last : List String} : flush (stackOf waiting) = .ok last ↔
    (∀ o ∈ waiting, o.isOperator = true) ∧ last = waiting.map Occurrence.token := by
  have flushed (h : ∀ o ∈ waiting, o.isOperator = true) :
      flush (stackOf waiting) = .ok (waiting.map Occurrence.token) := by
    obtain ⟨pending, hstack, hlexemes, -⟩ := exists_stackOf_eq h
    rw [hstack, flush_waiting, hlexemes]
  constructor
  · intro h
    rcases exists_group waiting with ⟨popped, o, kept, rfl, hpopped, ho⟩ | hall
    · rw [flush_of_place (places_stackOf_group hpopped ho)] at h
      cases h
    · rw [flushed hall] at h
      cases h
      exact ⟨hall, rfl⟩
  · rintro ⟨hall, rfl⟩
    exact flushed hall

theorem not_isOperator_open {place : Nat} : ¬Occurrence.isOperator ⟨"(", place⟩ = true := by
  have : isOperator "(" = false := by decide
  simp [Occurrence.isOperator, this]

theorem step_close {index : Nat} (h : ∀ o ∈ popped, o.isOperator = true)
    (ho : ¬o.isOperator = true) :
    step index ")" (stackOf (popped ++ o :: kept)) =
      .ok (popped.map Occurrence.token, stackOf kept) := by
  have hclose : InfixOperator.ofLexeme? ")" = none := by decide
  simp [step, hclose, popGroup?_eq h ho]

theorem step_close_error {index : Nat} (h : ∀ o ∈ waiting, o.isOperator = true) :
    step index ")" (stackOf waiting) = .error (.unmatchedClose index) := by
  have hclose : InfixOperator.ofLexeme? ")" = none := by decide
  simp [step, hclose, popGroup?_eq_none h]

theorem isSent_of_isOperator (h : o.isOperator = true) : o.isSent = true := by
  simp [Occurrence.isSent, not_isParenthesis_of_isOperator h]

theorem filter_isSent_of_isOperator (h : ∀ o ∈ waiting, o.isOperator = true) :
    waiting.filter Occurrence.isSent = waiting :=
  List.filter_eq_self.2 fun o ho => isSent_of_isOperator (h o ho)

theorem filter_isOperand_of_isOperator (h : ∀ o ∈ waiting, o.isOperator = true) :
    waiting.filter Occurrence.isOperand = [] :=
  List.filter_eq_nil_iff.2 fun o ho => by
    simp [Occurrence.isOperand, not_isOperand_of_isOperator (h o ho)]

end Stacks

namespace Account

variable {read rest tokens : List String} {sent waiting : List Occurrence} {token : String}

/-- What waits is operators and open parentheses. -/
theorem waits (h : Account read sent waiting) :
    ∀ o ∈ waiting, o.isOperator = true ∨ o.token = "(" := by
  induction h with
  | start => nofun
  | operand _ _ ih => exact ih
  | operator _ hoperator _ ih =>
    refine List.forall_mem_cons.2 ⟨.inl (isOperator_iff.2 ⟨_, hoperator⟩), fun o ho => ?_⟩
    exact ih o (List.mem_append_right _ ho)
  | opened _ ih => exact List.forall_mem_cons.2 ⟨.inr rfl, ih⟩
  | closed _ _ ih => exact fun o ho => ih o (List.mem_append_right _ (List.mem_cons_of_mem _ ho))

/-- The resolver gets there. -/
theorem runs (h : Account read sent waiting) :
    Runs 0 [] read (sent.map Occurrence.token) (stackOf waiting) := by
  have further {read : List String} {token : String} {out emitted : List String}
      {stack after : Stack} (h : Runs 0 [] read out stack)
      (hstep : step read.length token stack = .ok (emitted, after)) :
      Runs 0 [] (read ++ [token]) (out ++ emitted) after := by
    rw [← Nat.zero_add read.length] at hstep
    exact h.append (runs_singleton hstep)
  induction h with
  | start => exact .nil
  | operand _ htoken ih =>
    obtain ⟨hnone, ho, hc⟩ := isOperand_iff.1 htoken
    rw [List.map_append]
    exact further ih (by simp only [step, hnone, if_neg ho, if_neg hc]; rfl)
  | @operator read sent popped kept token operator _ hoperator parts ih =>
    have hpending : (⟨token, read.length⟩ : Occurrence).pending = .operator token operator := by
      rw [Occurrence.pending, hoperator]
    rw [List.map_append, stackOf, List.map_cons, hpending]
    exact further ih (by simp only [step, hoperator, parts.popTighter_eq]; rfl)
  | @opened read sent waiting _ ih =>
    rw [← List.append_nil (sent.map Occurrence.token)]
    exact further ih rfl
  | closed _ hpopped ih =>
    rw [List.map_append]
    exact further ih (step_close hpopped not_isOperator_open)

/-- The resolver goes nowhere else. -/
theorem exists_step {emitted : List String} {after : Stack} (h : Account read sent waiting)
    (hstep : step read.length token (stackOf waiting) = .ok (emitted, after)) :
    ∃ later waiting', Account (read ++ [token]) (sent ++ later) waiting' ∧
      later.map Occurrence.token = emitted ∧ stackOf waiting' = after := by
  by_cases hoperator : isOperator token = true
  · obtain ⟨operator, hlookup⟩ := isOperator_iff.1 hoperator
    obtain ⟨popped, kept, rfl, parts⟩ := exists_parts operator.strength waiting
    simp only [step, hlookup, parts.popTighter_eq] at hstep
    cases hstep
    refine ⟨popped, _, h.operator hlookup parts, rfl, ?_⟩
    rw [stackOf, List.map_cons, Occurrence.pending, hlookup]
    rfl
  by_cases hopen : token = "("
  · subst hopen
    cases hstep
    refine ⟨[], ⟨"(", read.length⟩ :: waiting, ?_, rfl, rfl⟩
    rw [List.append_nil]
    exact h.opened
  by_cases hclose : token = ")"
  · subst hclose
    rcases exists_group waiting with ⟨popped, o, kept, rfl, hpopped, ho⟩ | hall
    · rw [step_close hpopped ho] at hstep
      cases hstep
      have htoken : o.token = "(" :=
        (h.waits o (List.mem_append_right _ List.mem_cons_self)).resolve_left ho
      obtain ⟨_, place⟩ := o
      obtain rfl := htoken
      exact ⟨popped, kept, h.closed hpopped, rfl, rfl⟩
    · rw [step_close_error hall] at hstep
      cases hstep
  · have hnone : InfixOperator.ofLexeme? token = none :=
      Option.not_isSome_iff_eq_none.1 hoperator
    simp only [step, hnone, if_neg hopen, if_neg hclose] at hstep
    cases hstep
    exact ⟨_, waiting, h.operand (isOperand_iff.2 ⟨hnone, hopen, hclose⟩), rfl, rfl⟩

theorem exists_runs {out : List String} {after : Stack} (h : Account read sent waiting)
    (hruns : Runs read.length (stackOf waiting) rest out after) :
    ∃ later waiting', Account (read ++ rest) (sent ++ later) waiting' ∧
      later.map Occurrence.token = out ∧ stackOf waiting' = after := by
  induction rest generalizing read sent waiting out with
  | nil =>
    cases hruns
    exact ⟨[], waiting, by rwa [List.append_nil, List.append_nil], rfl, rfl⟩
  | cons token rest ih =>
    cases hruns with
    | cons hstep hrest =>
      obtain ⟨first, between, h', rfl, rfl⟩ := h.exists_step hstep
      have hlength : (read ++ [token]).length = read.length + 1 := List.length_append
      obtain ⟨later, waiting', h'', rfl, rfl⟩ := ih h' (hlength ▸ hrest)
      rw [List.append_assoc, List.append_assoc] at h''
      exact ⟨first ++ later, waiting', h'', List.map_append, rfl⟩

/-- Nothing is lost or sent twice. -/
theorem perm (h : Account read sent waiting) :
    (sent ++ waiting.filter Occurrence.isSent).Perm
      ((occurrences read).filter Occurrence.isSent) := by
  induction h with
  | start => exact .nil
  | @operand read sent waiting token _ htoken ih =>
    have hsent : Occurrence.isSent ⟨token, read.length⟩ = true := by
      simp [Occurrence.isSent, not_isParenthesis_of_isOperand htoken]
    rw [occurrences_append_singleton, List.filter_append, List.filter_cons_of_pos hsent,
      List.append_assoc]
    exact perm_append_singleton ih
  | @operator read sent popped kept token operator _ hoperator parts ih =>
    have htoken : isOperator token = true := isOperator_iff.2 ⟨operator, hoperator⟩
    have hsent : Occurrence.isSent ⟨token, read.length⟩ = true := isSent_of_isOperator htoken
    rw [List.filter_append, filter_isSent_of_isOperator parts.isOperator, ← List.append_assoc] at ih
    rw [occurrences_append_singleton, List.filter_append, List.filter_cons_of_pos hsent,
      List.filter_cons_of_pos hsent]
    exact perm_append_singleton ih
  | opened _ ih =>
    rw [occurrences_append_singleton, List.filter_append]
    simpa [Occurrence.isSent, isParenthesis] using ih
  | closed _ hpopped ih =>
    rw [List.filter_append, filter_isSent_of_isOperator hpopped, ← List.append_assoc] at ih
    rw [occurrences_append_singleton, List.filter_append]
    simpa [Occurrence.isSent, isParenthesis] using ih

/-- Operands are sent in their order. -/
theorem operands (h : Account read sent waiting) :
    sent.filter Occurrence.isOperand = (occurrences read).filter Occurrence.isOperand := by
  induction h with
  | start => rfl
  | operand _ _ ih =>
    rw [occurrences_append_singleton, List.filter_append, List.filter_append, ih]
  | @operator read _ _ _ token operator _ hoperator parts ih =>
    have htoken : isOperator token = true := isOperator_iff.2 ⟨operator, hoperator⟩
    have hnot : ¬Occurrence.isOperand ⟨token, read.length⟩ = true := by
      simp [Occurrence.isOperand, not_isOperand_of_isOperator htoken]
    rw [occurrences_append_singleton, List.filter_append, List.filter_append, ih,
      filter_isOperand_of_isOperator parts.isOperator, List.filter_cons_of_neg hnot]
    rfl
  | opened _ ih =>
    rw [occurrences_append_singleton, List.filter_append, ih]
    exact (List.append_nil _).symm
  | closed _ hpopped ih =>
    rw [occurrences_append_singleton, List.filter_append, List.filter_append, ih,
      filter_isOperand_of_isOperator hpopped]
    rfl

theorem place_lt (h : Account read sent waiting) :
    ∀ o ∈ sent ++ waiting, o.place < read.length := by
  have further {read : List String} {token : String} {o : Occurrence} (h : o.place < read.length) :
      o.place < (read ++ [token]).length := by
    rw [List.length_append]
    exact Nat.lt_succ_of_lt h
  have last {read : List String} {token : String} : read.length < (read ++ [token]).length := by
    simp
  induction h with
  | start => nofun
  | operand _ _ ih =>
    intro o ho
    simp only [List.mem_append, List.mem_singleton] at ho
    rcases ho with (ho | rfl) | ho
    · exact further (ih o (List.mem_append_left _ ho))
    · exact last
    · exact further (ih o (List.mem_append_right _ ho))
  | operator _ _ _ ih =>
    intro o ho
    simp only [List.mem_append, List.mem_cons] at ho ih
    rcases ho with (ho | ho) | rfl | ho
    · exact further (ih o (.inl ho))
    · exact further (ih o (.inr (.inl ho)))
    · exact last
    · exact further (ih o (.inr (.inr ho)))
  | opened _ ih =>
    intro o ho
    simp only [List.mem_append, List.mem_cons] at ho ih
    rcases ho with ho | rfl | ho
    · exact further (ih o (.inl ho))
    · exact last
    · exact further (ih o (.inr ho))
  | closed _ _ ih =>
    intro o ho
    simp only [List.mem_append, List.mem_cons] at ho ih
    rcases ho with (ho | ho) | ho
    · exact further (ih o (.inl ho))
    · exact further (ih o (.inr (.inl ho)))
    · exact further (ih o (.inr (.inr (.inr ho))))

/-- What lies deeper was read earlier. -/
theorem descending (h : Account read sent waiting) : waiting.Pairwise (·.place > ·.place) := by
  induction h with
  | start => exact .nil
  | operand _ _ ih => exact ih
  | operator h _ _ ih =>
    refine .cons (fun o ho => ?_) (List.pairwise_append.1 ih).2.1
    exact h.place_lt o (List.mem_append_right _ (List.mem_append_right _ ho))
  | opened h ih => exact .cons (fun o ho => h.place_lt o (List.mem_append_right _ ho)) ih
  | closed _ _ ih => exact (List.pairwise_cons.1 (List.pairwise_append.1 ih).2.1).2

/-- The parentheses that wait are those left open. -/
theorem awaits (h : Account read sent waiting) : Awaits read (places (stackOf waiting)) := by
  induction h with
  | start => exact .balanced .nil
  | operand _ htoken ih =>
    obtain ⟨-, ho, hc⟩ := isOperand_iff.1 htoken
    exact ih.other ho hc
  | @operator read _ _ _ token _ _ hoperator parts ih =>
    have htoken := not_isParenthesis_of_isOperator (isOperator_iff.2 ⟨_, hoperator⟩)
    simp only [isParenthesis, Bool.or_eq_false_iff, decide_eq_false_iff_not] at htoken
    rw [places_stackOf_append parts.isOperator] at ih
    rw [stackOf, List.map_cons, Occurrence.pending, hoperator]
    exact ih.other htoken.1 htoken.2
  | opened _ ih => exact ih.group
  | closed _ hpopped ih =>
    rw [places_stackOf_group hpopped not_isOperator_open] at ih
    exact ih.close

/-- The run got past every front part of the tokens. -/
theorem exists_front {front : List String} (h : Account read sent waiting)
    (hfront : front <+: read) :
    ∃ early waits, Account front early waits ∧ early <+: sent := by
  have further {read : List String} {token : String} {sent emitted waiting : List Occurrence}
      (h : Account (read ++ [token]) (sent ++ emitted) waiting) (hfront : front <+: read ++ [token])
      (ih : front <+: read → ∃ early waits, Account front early waits ∧ early <+: sent) :
      ∃ early waits, Account front early waits ∧ early <+: sent ++ emitted := by
    rcases List.prefix_concat_iff.1 hfront with rfl | hfront
    · exact ⟨_, _, h, List.prefix_refl _⟩
    · obtain ⟨early, waits, h, hearly⟩ := ih hfront
      exact ⟨early, waits, h, hearly.trans (List.prefix_append _ _)⟩
  induction h with
  | start =>
    obtain rfl := List.prefix_nil.1 hfront
    exact ⟨[], [], .start, List.prefix_refl _⟩
  | operand h htoken ih => exact further (h.operand htoken) hfront ih
  | operator h hoperator parts ih => exact further (h.operator hoperator parts) hfront ih
  | @opened read sent waiting h ih =>
    have h' := h.opened
    rw [← List.append_nil sent] at h' ⊢
    exact further h' hfront ih
  | closed h hpopped ih => exact further (h.closed hpopped) hfront ih

theorem closed_inv (h : Account (tokens ++ [")"]) sent waiting) :
    ∃ early popped place, Account tokens early (popped ++ ⟨"(", place⟩ :: waiting) ∧
      ∀ o ∈ popped, o.isOperator = true := by
  generalize hread : tokens ++ [")"] = read at h
  cases h with
  | start => exact absurd hread (by simp)
  | operand _ htoken =>
    obtain ⟨-, hlast⟩ := List.append_inj' hread rfl
    cases hlast
    exact absurd htoken (by decide)
  | operator _ hoperator =>
    obtain ⟨-, hlast⟩ := List.append_inj' hread rfl
    cases hlast
    have hnone : InfixOperator.ofLexeme? ")" = none := by decide
    cases hnone.symm.trans hoperator
  | opened =>
    obtain ⟨-, hlast⟩ := List.append_inj' hread rfl
    exact absurd hlast (by decide)
  | @closed read early popped _ place h hpopped =>
    obtain ⟨rfl, -⟩ := List.append_inj' hread rfl
    exact ⟨early, popped, place, h, hpopped⟩

/-- Behind a group only what stands in front of it waits. -/
theorem outside_group {before inside : List String}
    (h : Account (before ++ "(" :: inside ++ [")"]) sent waiting) (balanced : Balanced inside) :
    ∀ o ∈ waiting, o.place < before.length := by
  obtain ⟨early, popped, place, hinside, hpopped⟩ := h.closed_inv
  obtain ⟨_, _, hbefore, -⟩ := hinside.exists_front (List.prefix_append before _)
  -- the parenthesis that the last one closes is the one right behind `before`
  obtain rfl : place = before.length := by
    have found := hinside.awaits
    rw [places_stackOf_group hpopped not_isOperator_open] at found
    exact found.isGreatest.unique (Awaits.opened hbefore.awaits balanced).isGreatest
  intro o ho
  have ordered := (List.pairwise_append.1 hinside.descending).2.1
  exact List.rel_of_pairwise_cons ordered ho

end Account

end Infix
end FrontEnd
