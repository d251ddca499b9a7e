import FrontEnd.Proofs.Recognizer.Acceptance
import FrontEnd.Proofs.Recognizer.Blind

/-!
# FrontEnd.Proofs.Recognizer.Recoverable

What a recoverable refusal leaves behind.

* `Recognizer.Untouched` — the recognizer is as it was, apart from what it has reported.
* `Recog.Reversible`, `Recog.Committed` — a computation leaves the recognizer untouched when it
  refuses recoverably; or it never does so.
* `Grammar.Named` — the productions of the grammar, each with its name.
* `Grammar.named_reversible` — they are all reversible, so no attempt at one is a misuse.
-/

namespace FrontEnd

open Recognizer Recog

/-- Nothing has happened but reports. -/
def Recognizer.Untouched (r r' : Recognizer) : Prop := r' = { r with reports := r'.reports }

namespace Recog

def Reversible {α : Type} (body : Recog α) : Prop :=
  ∀ r error r', body r = .error (.refused (.recoverable error)) r' → Untouched r r'

def Committed {α : Type} (body : Recog α) : Prop :=
  ∀ r error r', body r ≠ .error (.refused (.recoverable error)) r'

variable {α : Type} {body : Recog α} {r r' : Recognizer} {error : SyntaxError}

/-- A computation that has not moved and has closed what it opened has done nothing. -/
theorem Blind.untouched (hb : Blind body) (hc : (leaves body r).cursor = r.cursor)
    (hn : (leaves body r).nesting = r.nesting) : Untouched r (leaves body r) := by
  have hsteps := hb.steps r
  rcases hsteps.still with hlt | heq
  · rw [matched_size_of_cursor_eq hc] at hlt
    exact absurd hlt (Nat.lt_irrefl _)
  · rw [hn, hsteps.poisoned] at heq
    exact heq

theorem untouched_of_recoverable (hb : Blind body)
    (he : body r = .error (.refused (.recoverable error)) r') (hc : r'.cursor = r.cursor) :
    Untouched r r' := by
  have hn := (hb.restores r).of_refused he
  rw [← leaves_of_error he] at hc hn ⊢
  exact hb.untouched hc hn

/-- Following the grammar from anywhere, a computation refuses recoverably only in front of its
first token. -/
theorem reversible_of_follows {c : Control} {ok : Recognizer → α → Arrival}
    {no : Recognizer → Refused} (hb : Blind body)
    (h : ∀ r, Ends body r (follows c r (ok r) (no r))) : Reversible body := by
  intro r error r' he
  have ends := h r
  unfold Ends at ends
  rw [he] at ends
  exact untouched_of_recoverable hb he ends.1

theorem committed_of_follows {c : Control} {ok : Recognizer → α → Arrival}
    (h : ∀ r, Ends body r (follows c r (ok r) never)) : Committed body := by
  intro r error r' he
  have ends := h r
  unfold Ends at ends
  rw [he] at ends
  exact ends.2

theorem Committed.reversible (h : Committed body) : Reversible body :=
  fun r error r' he => absurd he (h r error r')

theorem Reversible.within (name : String) (hb : Blind body) (h : Reversible body) :
    Reversible (within name body) := by
  intro r error r' he
  have hc : r'.cursor = r.cursor := by
    unfold Recognizer.within at he
    cases hs : body (r.enter name) with
    | ok a r₁ =>
      rw [hs] at he
      cases he
    | error stop r₁ =>
      rw [hs] at he
      cases stop with
      | refused refusal =>
        obtain ⟨hstop, rfl⟩ := EStateM.Result.error.inj he
        obtain rfl := Stop.refused.inj hstop
        have untouched := h _ _ _ hs
        unfold Untouched at untouched
        rw [cursor_leave, untouched]
        rfl
      | misuse => cases he
  exact untouched_of_recoverable (.within name hb) he hc

end Recog

namespace Recognizer.Grammar

/-- The productions of the grammar, under the names by which errors call them. -/
inductive Named : String → Recog Unit → Prop
  | program : Named "program" program
  | declaration : Named "declaration" declaration
  | globalVar (storage : Storage) : Named "global_var" (globalVar storage)
  | routineDeclaration (storage : Storage) :
    Named "routine_declaration" (routineDeclaration storage)
  | routineHeader : Named "routine_header" routineHeader
  | argumentList : Named "argument_list" argumentList
  | block : Named "block" block
  | statementList : Named "statement_list" statementList
  | statement : Named "statement" statement
  | labelDeclaration : Named "label_declaration" labelDeclaration
  | expression : Named "expression" expression
  | idList : Named "id_list" idList
  | varDeclarationList : Named "var_declaration_list" varDeclarationList
  | varDeclaration : Named "var_declaration" varDeclaration

variable {name : String} {body : Recog Unit}

/-- A production runs what the grammar includes in it. -/
theorem Named.composed (h : Named name body) : Composed Includes name body := by
  cases h with
  | program => exact composed_program
  | declaration => exact composed_declaration
  | globalVar storage => exact composed_globalVar storage
  | routineDeclaration storage => exact composed_routineDeclaration storage
  | routineHeader => exact composed_routineHeader
  | argumentList => exact composed_argumentList
  | block => exact composed_block
  | statementList => exact composed_statementList
  | statement => exact composed_statement
  | labelDeclaration => exact composed_labelDeclaration
  | expression => exact composed_expression
  | idList => exact composed_idList
  | varDeclarationList => exact composed_varDeclarationList
  | varDeclaration => exact composed_varDeclaration

theorem Named.blind (h : Named name body) : Blind body := h.composed.blind

theorem committed_program : Committed program :=
  committed_of_follows fun _ => follows_program

theorem committed_statementList : Committed statementList :=
  committed_of_follows fun _ => follows_statementList

/-- Each production follows the grammar from a place where it may begin. What the recognizer has
read before does not matter. -/
theorem Named.reversible (h : Named name body) : Reversible body := by
  have hb := h.blind
  cases h with
  | program => exact committed_program.reversible
  | declaration => exact reversible_of_follows hb fun _ => follows_declaration
  | globalVar storage =>
    exact reversible_of_follows hb fun _ => follows_globalVar (c := .modified storage) rfl
  | routineDeclaration storage =>
    exact reversible_of_follows hb fun _ => follows_routineDeclaration (c := .modified storage) rfl
  | routineHeader =>
    exact reversible_of_follows hb fun _ =>
      @follows_routineHeader _ .top .classic rfl
  | argumentList => exact reversible_of_follows hb fun _ => @follows_argumentList _ .classic
  | block =>
    exact reversible_of_follows hb fun _ => follows_block (c := .routineBody .classic) rfl
  | statementList => exact committed_statementList.reversible
  | statement => exact reversible_of_follows hb fun _ => follows_statement
  | labelDeclaration => exact reversible_of_follows hb fun _ => follows_labelDeclaration
  | expression => exact reversible_of_follows hb fun _ => follows_expression
  | idList =>
    exact reversible_of_follows hb fun _ =>
      @follows_idList _ .externalName .afterExternalName .externalName rfl rfl rfl (by simp)
  | varDeclarationList => exact reversible_of_follows hb fun _ => follows_varDeclarationList
  | varDeclaration => exact reversible_of_follows hb fun _ => follows_varDeclaration

end Recognizer.Grammar

theorem Recognizer.recognize_ne_misuse (r r' : Recognizer) : recognize r ≠ .error .misuse r' := by
  intro he
  cases hp : r.poisoned with
  | false =>
    have ends := ends_recognize hp
    unfold Ends at ends
    rw [he] at ends
    exact ends
  | true =>
    unfold recognize at he
    rw [hp] at he
    cases he

namespace Recognizer.Grammar

/-- A recoverable refusal means that nothing happened: whatever the recognizer has read and holds,
a production that refuses so leaves it untouched, run by itself or under its name. A program and a
list of statements never refuse so. And no attempt inside a verdict is misused. -/
theorem named_reversible :
    (∀ name body, Named name body → Reversible body ∧ Reversible (within name body)) ∧
      Committed program ∧ Committed statementList ∧
      ∀ r r', recognize r ≠ .error .misuse r' :=
  ⟨fun name _ h => ⟨h.reversible, h.reversible.within name h.blind⟩, committed_program,
    committed_statementList, recognize_ne_misuse⟩

/-- Behind a storage modifier a header is missing: it is refused where the modifier was read, with
the productions around it open, and only the reports show that it was tried. -/
theorem named_reversible_missing_header :
    let r : Recognizer :=
      { lookahead := ⟨.identifier "x", 3⟩
        rest := [.eof 3]
        file := "a.sir"
        line := 3
        verbose := false
        matched := #[⟨.keyword .staticKw, 2⟩]
        nesting := ["declaration", "program"]
        poisoned := false
        reports := #[] }
    ∃ error r', within "routine_header" routineHeader r = .error (.refused (.recoverable error)) r' ∧
      error.path = some ["program", "declaration", "routine_header"] ∧ r'.reports.size = 3 ∧
      Untouched r r' := by
  intro r
  have hr : within "routine_header" routineHeader r = .error (.refused (.recoverable _)) _ := rfl
  exact ⟨_, _, hr, rfl, rfl, (named_reversible.1 _ _ .routineHeader).2 _ _ _ hr⟩

end Recognizer.Grammar
end FrontEnd
