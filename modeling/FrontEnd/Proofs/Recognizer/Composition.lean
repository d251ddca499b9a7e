import FrontEnd.Proofs.Recognizer.Operations

/-!
# FrontEnd.Proofs.Recognizer.Composition

Which productions a production runs.

* `Recognizer.Grammar.parts` — the productions that the grammar has in the rule of one;
  `Recognizer.Grammar.Includes` — the same as a relation.
* `Recog.Composed runs owner body` — the body is made of operations, and the productions that it
  runs under a name are those that `runs` allows the owner, and they are composed so, too.
* `Recog.composed_program`, `Recog.composed_declaration`, … — the productions of the grammar run
  what the grammar includes in them, and nothing else.
-/

namespace FrontEnd

namespace Recognizer.Grammar

/-- The productions in the rule of a production, by their names. -/
def parts : String → List String
  | "program" => ["declaration"]
  | "declaration" => ["global_var", "routine_declaration"]
  | "global_var" => ["var_declaration_list", "id_list"]
  | "var_declaration_list" => ["var_declaration"]
  | "var_declaration" => ["id_list", "expression"]
  | "routine_declaration" => ["routine_header", "block"]
  | "routine_header" => ["argument_list"]
  | "argument_list" => ["id_list"]
  | "block" => ["statement_list"]
  | "statement_list" => ["statement"]
  | "statement" => ["label_declaration"]
  | _ => []

def Includes (outer inner : String) : Prop := inner ∈ parts outer

instance (outer inner : String) : Decidable (Includes outer inner) :=
  inferInstanceAs (Decidable (inner ∈ parts outer))

end Recognizer.Grammar

namespace Recog

open Recognizer Recognizer.Grammar

/-- Computations that a production is made of, which goes by the answers of the operations alone.
Whatever it runs under a name it may run, and that is composed in the same way. -/
inductive Composed (runs : String → String → Prop) : {α : Type} → String → Recog α → Prop
  | pure {α : Type} {owner : String} (a : α) : Composed runs owner (pure a)
  | refuse {α : Type} {owner : String} (what : String) :
    Composed runs owner (refuse what : Recog α)
  | matchKind {owner : String} (kind : TokenKind) : Composed runs owner (matchKind kind)
  | matchKeyword {owner : String} (k : Keyword) : Composed runs owner (matchKeyword k)
  | report {owner : String} (storage : Storage) (what : Declared) :
    Composed runs owner (report storage what)
  | endOfInput {owner : String} : Composed runs owner endOfInput
  | bind {α β : Type} {owner : String} {body : Recog α} {f : α → Recog β} :
    Composed runs owner body → (∀ a, Composed runs owner (f a)) → Composed runs owner (body >>= f)
  | cut {α : Type} {owner : String} {body : Recog α} : Composed runs owner body →
    Composed runs owner (cut body)
  | within {α : Type} {owner name : String} {body : Recog α} : runs owner name →
    Composed runs name body → Composed runs owner (within name body)
  | attempt {owner name : String} {body : Recog Unit} : runs owner name →
    Composed runs name body → Composed runs owner (attempt name body)
  | otherwise {α : Type} {owner : String} {body other : Recog α} : Composed runs owner body →
    Composed runs owner other → Composed runs owner (otherwise body other)
  | repeatWhile {owner : String} {step : Recog Bool} : Composed runs owner step →
    Composed runs owner (repeatWhile step)

namespace Composed

variable {runs : String → String → Prop} {owner : String} {α : Type} {body other : Recog α}

theorem ite (found : Bool) (h : Composed runs owner body) (ho : Composed runs owner other) :
    Composed runs owner (if found then body else other) := by
  cases found
  · exact ho
  · exact h

theorem expect (kind : TokenKind) (what : String) : Composed runs owner (expect kind what) :=
  .bind (.matchKind kind) fun found => .ite found (.pure ()) (.refuse what)

theorem expectKeyword (k : Keyword) (what : String) :
    Composed runs owner (expectKeyword k what) :=
  .bind (.matchKeyword k) fun found => .ite found (.pure ()) (.refuse what)

end Composed

theorem composed_expression : Composed Includes "expression" expression := by
  have tried (kinds : List TokenKind) :
      Composed Includes "expression" (kinds.anyM Recognizer.matchKind : Recog Bool) := by
    induction kinds with
    | nil => exact .pure false
    | cons kind kinds ih =>
      exact .bind (.matchKind kind) fun found => by cases found <;> first | exact ih | exact .pure _
  exact .bind (tried _) fun found => .ite found (.pure ()) (.refuse _)

theorem composed_idList : Composed Includes "id_list" idList :=
  .bind (.expect _ _) fun _ => .repeatWhile <| .bind (.matchKind _) fun found =>
    .ite found (.bind (.cut (.expect _ _)) fun _ => .pure true) (.pure false)

theorem composed_varDeclaration : Composed Includes "var_declaration" varDeclaration :=
  .bind (.within (by decide) composed_idList) fun _ => .bind (.matchKind _) fun found =>
    .ite found (.cut (.within (by decide) composed_expression)) (.pure ())

theorem composed_varDeclarationList :
    Composed Includes "var_declaration_list" varDeclarationList := by
  have first : Composed Includes "var_declaration_list" (within "var_declaration" varDeclaration) :=
    .within (by decide) composed_varDeclaration
  exact .bind first fun _ => .repeatWhile <| .bind (.matchKind _) fun found =>
    .ite found (.bind (.cut first) fun _ => .pure true) (.pure false)

theorem composed_variableList (storage : Storage) :
    Composed Includes "global_var" (variableList storage) := by
  cases storage with
  | external => exact .cut (.within (by decide) composed_idList)
  | classic | static => exact .cut (.within (by decide) composed_varDeclarationList)

theorem composed_globalVar (storage : Storage) :
    Composed Includes "global_var" (globalVar storage) :=
  .bind (.expectKeyword _ _) fun _ => .bind (composed_variableList storage) fun _ =>
    .bind (.cut (.expect _ _)) fun _ => .report _ _

theorem composed_argumentList : Composed Includes "argument_list" argumentList :=
  .bind (.expect _ _) fun _ => .bind (.matchKind _) fun found =>
    .ite found (.pure ()) <| .bind (.cut (.within (by decide) composed_idList)) fun _ =>
      .cut (.expect _ _)

theorem composed_routineHeader : Composed Includes "routine_header" routineHeader :=
  .bind (.expectKeyword _ _) fun _ => .bind (.cut (.expect _ _)) fun _ =>
    .cut (.within (by decide) composed_argumentList)

theorem composed_labelDeclaration : Composed Includes "label_declaration" labelDeclaration :=
  .bind (.expect _ _) fun _ => .cut (.expect _ _)

theorem composed_statement : Composed Includes "statement" statement :=
  .bind (.matchKind _) fun found =>
    .ite found (.pure ()) (.within (by decide) composed_labelDeclaration)

theorem composed_statementList : Composed Includes "statement_list" statementList :=
  .repeatWhile (.attempt (by decide) composed_statement)

theorem composed_block : Composed Includes "block" block :=
  .bind (.expect _ _) fun _ => .bind (.within (by decide) composed_statementList) fun _ =>
    .cut (.expect _ _)

theorem composed_routineBody (storage : Storage) :
    Composed Includes "routine_declaration" (routineBody storage) := by
  cases storage with
  | external => exact .cut (.expect _ _)
  | classic | static => exact .cut (.within (by decide) composed_block)

theorem composed_routineDeclaration (storage : Storage) :
    Composed Includes "routine_declaration" (routineDeclaration storage) :=
  .bind (.within (by decide) composed_routineHeader) fun _ =>
    .bind (composed_routineBody storage) fun _ => .report _ _

/-- Without a storage modifier a routine may be missing. -/
theorem routine_classic :
    routine .classic = within "routine_declaration" (routineDeclaration .classic) := by
  funext r
  unfold routine
  cases within "routine_declaration" (routineDeclaration .classic) r with
  | ok a r' => rfl
  | error stop r' => cases stop with
    | refused refusal => cases refusal <;> rfl
    | misuse => rfl

theorem routine_modified {storage : Storage} (h : storage ≠ .classic) :
    routine storage = otherwise (within "routine_declaration" (routineDeclaration storage))
      (cut (refuse "variable or routine declaration after storage modifier")) := by
  funext r
  unfold routine otherwise
  cases within "routine_declaration" (routineDeclaration storage) r with
  | ok a r' => rfl
  | error stop r' => cases stop with
    | refused refusal => cases refusal with
      | recoverable e => exact if_neg h
      | fatal e => rfl
    | misuse => rfl

theorem composed_routine (storage : Storage) :
    Composed Includes "declaration" (routine storage) := by
  by_cases h : storage = .classic
  · rw [h, routine_classic]
    exact .within (by decide) (composed_routineDeclaration _)
  · rw [routine_modified h]
    exact .otherwise (.within (by decide) (composed_routineDeclaration _)) (.cut (.refuse _))

theorem composed_storageModifier : Composed Includes "declaration" storageModifier :=
  .bind (.matchKeyword _) fun found => .ite found (.pure _) <| .bind (.matchKeyword _) fun found =>
    .ite found (.pure _) (.pure _)

theorem composed_declaration : Composed Includes "declaration" declaration :=
  .bind composed_storageModifier fun storage =>
    .bind (.attempt (by decide) (composed_globalVar storage)) fun done =>
      .ite done (.pure ()) (composed_routine storage)

theorem composed_program : Composed Includes "program" program :=
  .bind (.repeatWhile (.attempt (by decide) composed_declaration)) fun _ => .endOfInput

end Recog
end FrontEnd
