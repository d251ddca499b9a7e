import FrontEnd.Proofs.Recognizer.Acceptance
import FrontEnd.Proofs.Recognizer.Finality
import FrontEnd.Proofs.Recognizer.Outline

/-!
# FrontEnd.Proofs.Recognizer.Progress

The loops of the grammar go on as long as there is something to consume, and no longer.

* `Recog.Outline.program`, `Recog.Outline.declaration`, … — the outlines of the productions. One
  that consumes something whenever it succeeds has a token to spare.
* `Recog.Outline.round` — and so has one round of a loop.
* `Recognizer.Consumed` — what was consumed between two recognizers.
* `Recognizer.verdictRounds` — the rounds of all loops in a verdict, and
  `Recognizer.recognize_advances` — it consumes as many tokens.
* `Recognizer.loops_progress` — a declaration, a statement and a round of a loop consume something;
  a verdict consumes no end of input, and its loops have no more rounds than there are tokens.
-/

namespace FrontEnd
namespace Recog

open Recognizer Recognizer.Grammar

namespace Outline

variable {α : Type} {total : α → Nat} {yes no : Recog α}

/-- Behind a match. Where it succeeded it has a token to spare. -/
def ite (found : Bool) (matched : Outline (fun a => total a - 1) yes) (missed : Outline total no) :
    Outline (fun a => total a - found.toNat) (if found then yes else no) :=
  match found with
  | true => matched
  | false => missed

def expect {kind : TokenKind} (what : String) (heof : kind ≠ .eof) :
    Outline (fun _ => 1) (expect kind what) :=
  .bind (.matchKind heof) fun found => .ite found (.pure () rfl) (.refuse what)

def expectKeyword (k : Keyword) (what : String) :
    Outline (fun _ => 1) (expectKeyword k what) :=
  .bind (.matchKeyword k) fun found => .ite found (.pure () rfl) (.refuse what)

def anyOf : (kinds : List TokenKind) → (∀ kind ∈ kinds, kind ≠ .eof) →
    Outline (fun _ => 0) (kinds.anyM Recognizer.matchKind : Recog Bool)
  | [], _ => .pure false rfl
  | kind :: kinds, h => .bind (.matchKind (h kind List.mem_cons_self)) fun found =>
    match found with
    | true => .pure true rfl
    | false => anyOf kinds fun kind hmem => h kind (List.mem_cons_of_mem _ hmem)

def expression : Outline (fun _ => 0) expression :=
  .bind (.anyOf constantKinds (by decide)) fun found =>
    match found with
    | true => .pure () rfl
    | false => .refuse "constant expression"

def anotherIdentifier : Outline Bool.toNat (Loop.step .idList) :=
  .bind (.matchKind (by decide)) fun found =>
    .ite found (.bind (.cut (.expect _ (by decide))) fun _ => .pure true rfl) (.pure false rfl)

def idList : Outline (fun _ => 1) idList :=
  .bind (.expect _ (by decide)) fun _ => .loop .idList anotherIdentifier

def varDeclaration : Outline (fun _ => 1) varDeclaration :=
  .bind (.within _ idList) fun _ => .bind (.matchKind (by decide)) fun found =>
    .ite found (.cut (.within _ expression)) (.pure () rfl)

def anotherVariable : Outline Bool.toNat (Loop.step .varDeclarationList) :=
  .bind (.matchKind (by decide)) fun found =>
    .ite found (.bind (.cut (.within _ varDeclaration)) fun _ => .pure true rfl) (.pure false rfl)

def varDeclarationList : Outline (fun _ => 1) varDeclarationList :=
  .bind (.within _ varDeclaration) fun _ => .loop .varDeclarationList anotherVariable

def variableList : (storage : Storage) → Outline (fun _ => 1) (variableList storage)
  | .external => .cut (.within _ idList)
  | .classic => .cut (.within _ varDeclarationList)
  | .static => .cut (.within _ varDeclarationList)

def globalVar (storage : Storage) : Outline (fun _ => 1) (globalVar storage) :=
  .bind (.expectKeyword _ _) fun _ => .bind (variableList storage) fun _ =>
    .bind (.cut (.expect _ (by decide))) fun _ => .report _ _

def argumentList : Outline (fun _ => 1) argumentList :=
  .bind (.expect _ (by decide)) fun _ => .bind (.matchKind (by decide)) fun found =>
    .ite found (.pure () rfl) <| .bind (.cut (.within _ idList)) fun _ =>
      .forgo (.cut (.expect _ (by decide)))

def routineHeader : Outline (fun _ => 1) routineHeader :=
  .bind (.expectKeyword _ _) fun _ => .bind (.cut (.expect _ (by decide))) fun _ =>
    .forgo (.cut (.within _ argumentList))

def labelDeclaration : Outline (fun _ => 1) labelDeclaration :=
  .bind (.expect _ (by decide)) fun _ => .forgo (.cut (.expect _ (by decide)))

def statement : Outline (fun _ => 1) statement :=
  .bind (.matchKind (by decide)) fun found =>
    .ite found (.pure () rfl) (.within _ labelDeclaration)

def statementList : Outline (fun _ => 0) statementList :=
  .loop .statementList (.attempt _ statement)

def block : Outline (fun _ => 1) block :=
  .bind (.expect _ (by decide)) fun _ => .bind (.within _ statementList) fun _ =>
    .forgo (.cut (.expect _ (by decide)))

def routineBody : (storage : Storage) → Outline (fun _ => 1) (routineBody storage)
  | .external => .cut (.expect _ (by decide))
  | .classic => .cut (.within _ block)
  | .static => .cut (.within _ block)

def routineDeclaration (storage : Storage) : Outline (fun _ => 1) (routineDeclaration storage) :=
  .bind (.within _ routineHeader) fun _ => .bind (routineBody storage) fun _ => .report _ _

def routine : (storage : Storage) → Outline (fun _ => 1) (routine storage)
  | .classic => .same routine_classic (.within _ (routineDeclaration .classic))
  | .external => .same (routine_modified (by decide))
      (.otherwise (.within _ (routineDeclaration .external)) (.cut (.refuse _)))
  | .static => .same (routine_modified (by decide))
      (.otherwise (.within _ (routineDeclaration .static)) (.cut (.refuse _)))

def storageModifier : Outline (fun _ => 0) storageModifier :=
  .bind (.matchKeyword _) fun found => .ite found (.pure _ rfl) <|
    .bind (.matchKeyword _) fun found => .ite found (.pure _ rfl) (.pure _ rfl)

def declaration : Outline (fun _ => 1) declaration :=
  .bind storageModifier fun storage => .bind (.attempt _ (globalVar storage)) fun found =>
    .ite found (.pure () rfl) (routine storage)

def program : Outline (fun _ => 0) program :=
  .bind (.loop .program (.attempt _ declaration)) fun _ => .endOfInput

/-- One round of a loop. -/
def round : (loop : Loop) → Outline Bool.toNat loop.step
  | .program => .attempt _ declaration
  | .statementList => .attempt _ statement
  | .idList => anotherIdentifier
  | .varDeclarationList => anotherVariable

end Outline
end Recog

namespace Recognizer

open Recog

/-- The rounds that the loops of the grammar complete in a verdict; a poisoned recognizer runs
none. -/
def verdictRounds (r : Recognizer) : Nat :=
  if r.poisoned then 0
  else (Outline.within "program" Outline.program).rounds (r.note .debug (.recognizing r.file))

/-- These tokens, the first of those ahead, were consumed between the two. -/
structure Consumed (w : TokenStream) (r r' : Recognizer) : Prop where
  matched : r'.matched.toList = r.matched.toList ++ w
  ahead : r.cursor.ahead = w ++ r'.cursor.ahead
  not_eof : ∀ token ∈ w, token.kind ≠ .eof

variable {r r' : Recognizer} {w : TokenStream}

theorem Consumed.of_reads (h : r.cursor.Reads w r'.cursor) : Consumed w r r' := by
  refine ⟨h.matched, h.ahead, fun token hmem => ?_⟩
  have hahead : token ∈ r.cursor.ahead := h.ahead ▸ List.mem_append_left _ hmem
  simpa using List.mem_takeWhile_imp hahead

/-- An answer with tokens to spare has consumed some. -/
theorem exists_consumed {α : Type} {spare : α → Nat} {body : Recog α}
    (outline : Outline spare body) {a : α} (h : body r = .ok a r') (ha : 0 < spare a) :
    ∃ w, w ≠ [] ∧ Consumed w r r' := by
  have advances := (outline.accounts r).of_ok h
  obtain ⟨w, hw, reads⟩ := advances.exists_reads (Nat.lt_of_lt_of_le ha (Nat.le_add_left _ _))
  exact ⟨w, hw, .of_reads reads⟩

/-- What a verdict consumes a program consumes, and that has a token for each round. -/
theorem recognize_advances (r : Recognizer) :
    r.cursor.Advances r.verdictRounds (leaves recognize r).cursor := by
  unfold verdictRounds
  by_cases hp : r.poisoned = true
  · rw [if_pos hp, leaves_of_error (recognize_of_poisoned hp)]
    exact .refl
  · have program := ((Outline.within "program" Outline.program).accounts
      (r.note .debug (.recognizing r.file))).leaves
    rw [if_neg hp]
    unfold leaves recognize
    rw [if_neg hp]
    cases hb : within "program" Grammar.program (r.note .debug (.recognizing r.file)) with
    | ok a r' =>
      rw [leaves_of_ok hb] at program
      exact program
    | error stop r' =>
      rw [leaves_of_error hb] at program
      cases stop <;> exact program

/-- Wherever a declaration or a statement succeeds, and wherever a loop completes a round, something
was consumed. So no loop goes round at the end of input, and none is ended by anything but its step.
Whatever its tokens are, a verdict consumes no end of input; the rounds of its loops, all together,
are no more than the tokens that it consumes, and these are the first ones of those in front of the
first end of input. -/
theorem loops_progress :
    (∀ r r', Grammar.declaration r = .ok () r' → ∃ w, w ≠ [] ∧ Consumed w r r') ∧
      (∀ r r', Grammar.statement r = .ok () r' → ∃ w, w ≠ [] ∧ Consumed w r r') ∧
      (∀ loop : Grammar.Loop,
        (∀ r r', loop.step r = .ok true r' → ∃ w, w ≠ [] ∧ Consumed w r r') ∧
        (∀ r r', r.lookahead.kind = .eof → loop.step r ≠ .ok true r') ∧
        repeatWhile loop.step = (do if ← loop.step then repeatWhile loop.step)) ∧
      (∀ r, ∃ w, Consumed w r (leaves recognize r) ∧ r.verdictRounds ≤ w.length) ∧
      ∀ (tokens : TokenStream) (label : String) (verbose : Bool),
        let r := ofTokens tokens label verbose
        let consumed := (leaves recognize r).matched.toList
        consumed <+: tokens.beforeEof ∧ consumed.length ≤ tokens.beforeEof.length ∧
          (∀ token ∈ consumed, token.kind ≠ .eof) ∧
          r.verdictRounds ≤ tokens.beforeEof.length := by
  have round {loop : Grammar.Loop} {r r' : Recognizer} (h : loop.step r = .ok true r') :=
    exists_consumed (Outline.round loop) h Nat.one_pos
  refine ⟨fun _ _ h => exists_consumed Outline.declaration h Nat.one_pos,
    fun _ _ h => exists_consumed Outline.statement h Nat.one_pos,
    fun loop => ⟨fun _ _ h => round h, fun r r' heof h => ?_,
      (Outline.round loop).repeatWhile_eq_of_step⟩,
    fun r => ?_, fun tokens label verbose => ?_⟩
  · obtain ⟨w, hw, consumed⟩ := round h
    have ahead := consumed.ahead
    rw [Cursor.ahead_of_eof heof] at ahead
    exact hw (List.append_eq_nil_iff.1 ahead.symm).1
  · obtain ⟨w, reads, hw⟩ := recognize_advances r
    exact ⟨w, .of_reads reads, hw⟩
  · intro r consumed
    obtain ⟨w, reads, hw⟩ := recognize_advances r
    have all : Consumed w r (leaves recognize r) := .of_reads reads
    obtain rfl : consumed = w := all.matched
    have before : consumed <+: tokens.beforeEof := ⟨_, ahead_ofTokens ▸ all.ahead.symm⟩
    exact ⟨before, before.length_le, all.not_eof, Nat.le_trans hw before.length_le⟩

/-- A routine with two arguments and two statements, two variables read and a third one, and a
parenthesis that is refused. -/
theorem loops_progress_rejected_program :
    let tokens : TokenStream :=
      [⟨.keyword .routineKw, 1⟩, ⟨.identifier "f", 1⟩, ⟨.punctuation .lParen, 1⟩,
        ⟨.identifier "a", 1⟩, ⟨.punctuation .comma, 1⟩, ⟨.identifier "b", 1⟩,
        ⟨.punctuation .rParen, 1⟩, ⟨.punctuation .lBrace, 1⟩, ⟨.punctuation .semicolon, 1⟩,
        ⟨.identifier "l", 1⟩, ⟨.punctuation .colon, 1⟩, ⟨.punctuation .rBrace, 1⟩,
        ⟨.keyword .varKw, 2⟩, ⟨.identifier "x", 2⟩, ⟨.punctuation .comma, 2⟩,
        ⟨.identifier "y", 2⟩, ⟨.operator .strictAssign rfl, 2⟩, ⟨.number "1", 2⟩,
        ⟨.punctuation .comma, 2⟩, ⟨.identifier "z", 2⟩, ⟨.punctuation .semicolon, 2⟩,
        ⟨.punctuation .rParen, 2⟩, .eof 2, .eof 3]
    let fresh := ofTokens tokens "a.sir" false
    let arguments := ofTokens (tokens.drop 4) "a.sir" false
    (∃ w, w ≠ [] ∧ Consumed w fresh (leaves Grammar.declaration fresh)) ∧
      (∃ w, w ≠ [] ∧ Consumed w arguments (leaves (Grammar.Loop.step .idList) arguments)) ∧
      (leaves recognize fresh).matched.toList = tokens.take 21 ∧ fresh.verdictRounds = 7 ∧
      fresh.verdictRounds ≤ tokens.beforeEof.length := by
  intro tokens fresh arguments
  obtain ⟨declarations, -, loops, -, verdicts⟩ := loops_progress
  have declared : result Grammar.declaration fresh = .ok () := by decide +kernel
  have again : result (Grammar.Loop.step .idList) arguments = .ok true := by decide +kernel
  obtain ⟨-, -, -, bounded⟩ := verdicts tokens "a.sir" false
  exact ⟨declarations _ _ (ok_of_result declared), (loops .idList).1 _ _ (ok_of_result again),
    by decide +kernel, by decide +kernel, bounded⟩

end Recognizer
end FrontEnd
