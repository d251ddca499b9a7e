import FrontEnd.Proofs.Recognizer.Phrase

/-!
# FrontEnd.Proofs.Recognizer.Control

The grammar of programs read one token at a time.

* `Control` — how far into a declaration the tokens read so far have come.
* `Control.moves` — the terminals that may come next, each with where it leads. No terminal leads
  to two places, so a list of terminals has at most one end (`Control.run`).
* `Control.residual` — what is still to come, as phrases of the grammar.
* `Control.derivesAll_residual_cons` — a word can still come exactly if its first terminal is one
  of the moves and the rest of it can come after that.
* `derives_program_iff_run` — the grammar derives the words that lead back to `Control.top`.
-/

namespace FrontEnd

inductive Control where
  /-- In front of a declaration, or at the end. -/
  | top
  /-- Behind a storage modifier. -/
  | modified (storage : Storage)
  /-- Where a name of an external variable has to follow. -/
  | externalName
  | afterExternalName
  /-- Where a variable has to follow, by its name. -/
  | variableName
  | afterVariableName
  /-- Behind the `=` of a variable. -/
  | value
  | afterValue
  | routineName (storage : Storage)
  | argumentList (storage : Storage)
  /-- Behind the parenthesis that opens an argument list. -/
  | firstArgument (storage : Storage)
  | afterArgument (storage : Storage)
  /-- Behind a comma between arguments. -/
  | nextArgument (storage : Storage)
  | routineBody (storage : Storage)
  /-- Inside a block, in front of a statement or at the end of the block. -/
  | statements
  | labelColon
  deriving DecidableEq

namespace Control

def declared : Storage → Control
  | .external => externalName
  | .classic | .static => variableName

/-- How a declaration can begin behind its storage modifier, or without one. -/
def declarationMoves (storage : Storage) : List (Terminal × Control) :=
  [(.keyword .varKw, declared storage), (.keyword .routineKw, routineName storage)]

/-- The terminals that may come next, with where they lead. -/
def moves : Control → List (Terminal × Control)
  | top =>
    declarationMoves .classic
      ++ [(.keyword .externKw, modified .external), (.keyword .staticKw, modified .static)]
  | modified storage => declarationMoves storage
  | externalName => [(.kind .identifier, afterExternalName)]
  | afterExternalName => [(.kind .comma, externalName), (.kind .semicolon, top)]
  | variableName => [(.kind .identifier, afterVariableName)]
  | afterVariableName =>
    [(.kind .comma, variableName), (.kind .strictAssign, value), (.kind .semicolon, top)]
  | value =>
    [(.kind .null, afterValue), (.kind .number, afterValue), (.kind .string, afterValue),
      (.kind .identifier, afterValue), (.kind .bool, afterValue)]
  | afterValue => [(.kind .comma, variableName), (.kind .semicolon, top)]
  | routineName storage => [(.kind .identifier, argumentList storage)]
  | argumentList storage => [(.kind .lParen, firstArgument storage)]
  | firstArgument storage =>
    [(.kind .rParen, routineBody storage), (.kind .identifier, afterArgument storage)]
  | afterArgument storage =>
    [(.kind .comma, nextArgument storage), (.kind .rParen, routineBody storage)]
  | nextArgument storage => [(.kind .identifier, afterArgument storage)]
  | routineBody .external => [(.kind .semicolon, top)]
  | routineBody _ => [(.kind .lBrace, statements)]
  | statements =>
    [(.kind .semicolon, statements), (.kind .identifier, labelColon), (.kind .rBrace, top)]
  | labelColon => [(.kind .colon, statements)]

def step (c : Control) (t : Terminal) : Option Control := c.moves.lookup t

/-- Where a list of terminals leads, if it leads anywhere. -/
def run (c : Control) : List Terminal → Option Control
  | [] => some c
  | t :: w =>
    match c.step t with
    | some d => d.run w
    | none => none

theorem moves_nodup (c : Control) : (c.moves.map Prod.fst).Nodup := by
  cases c with
  | modified s => cases s <;> decide
  | routineBody s => cases s <;> decide
  | _ => simp [moves, declarationMoves]

theorem step_eq_some_iff {c d : Control} {t : Terminal} :
    c.step t = some d ↔ (t, d) ∈ c.moves := by
  unfold step
  constructor
  · intro h
    obtain ⟨before, after, heq, -⟩ := List.lookup_eq_some_iff.1 h
    rw [heq]
    exact List.mem_append_right _ List.mem_cons_self
  · intro h
    obtain ⟨before, after, heq⟩ := List.append_of_mem h
    refine List.lookup_eq_some_iff.2 ⟨before, after, heq, fun move hm => ?_⟩
    have nodup := moves_nodup c
    rw [heq, List.map_append, List.map_cons] at nodup
    have ne := (List.nodup_append.1 nodup).2.2 move.1 (List.mem_map_of_mem hm) t List.mem_cons_self
    simpa using Ne.symm ne

theorem run_append {c : Control} {u v : List Terminal} :
    c.run (u ++ v) = (c.run u).bind (·.run v) := by
  induction u generalizing c with
  | nil => rfl
  | cons t u ih =>
    rw [List.cons_append, run, run]
    cases c.step t with
    | none => rfl
    | some d => exact ih

open Phrase Production

def declarations : Phrase := many (production declaration)

/-- How a list of names goes on. -/
def moreNames : Phrase := many (token .comma ++ token .identifier)

/-- What is still to come, up to the end of the program. -/
def residual : Control → List Phrase
  | top => [declarations]
  | modified storage => [Production.declared storage, declarations]
  | externalName => [production idList, token .semicolon, declarations]
  | afterExternalName => [moreNames, token .semicolon, declarations]
  | variableName => [production varDeclarationList, token .semicolon, declarations]
  | afterVariableName =>
    [moreNames, Phrase.optional (token .strictAssign ++ production expression),
      many (token .comma ++ production varDeclaration), token .semicolon, declarations]
  | value =>
    [production expression, many (token .comma ++ production varDeclaration), token .semicolon,
      declarations]
  | afterValue =>
    [many (token .comma ++ production varDeclaration), token .semicolon, declarations]
  | routineName storage =>
    [token .identifier, production Production.argumentList, Production.routineBody storage,
      declarations]
  | argumentList storage =>
    [production Production.argumentList, Production.routineBody storage, declarations]
  | firstArgument storage =>
    [token .rParen ||| (production idList ++ token .rParen), Production.routineBody storage,
      declarations]
  | afterArgument storage =>
    [moreNames, token .rParen, Production.routineBody storage, declarations]
  | nextArgument storage =>
    [production idList, token .rParen, Production.routineBody storage, declarations]
  | routineBody storage => [Production.routineBody storage, declarations]
  | statements =>
    [many (production statement), token .rBrace, declarations]
  | labelColon =>
    [token .colon, many (production statement), token .rBrace, declarations]

section Residual

variable {c : Control} {t : Terminal} {w : List Terminal}

theorem exists_move_cons {x : Terminal} {e : Control} {ms : List (Terminal × Control)}
    {p : Control → Prop} :
    (∃ d, (t, d) ∈ (x, e) :: ms ∧ p d) ↔ t = x ∧ p e ∨ ∃ d, (t, d) ∈ ms ∧ p d := by
  simp only [List.mem_cons, Prod.mk.injEq, or_and_right, exists_or, and_assoc, exists_and_left,
    exists_eq_left]

theorem exists_move_nil {p : Control → Prop} :
    (∃ d, (t, d) ∈ ([] : List (Terminal × Control)) ∧ p d) ↔ False := by simp

attribute [local simp] derivesAll_production Production.rhs Production.declared
  Production.variableList Production.routineBody Phrase.optional keyword token declarations
  moreNames

theorem derivesAll_residual_nil : DerivesAll c.residual [] ↔ c = top := by
  cases c with
  | modified s => cases s <;> simp [residual]
  | routineBody s => cases s <;> simp [residual]
  | _ => simp [residual]

/-- A word can still come exactly if its first terminal is one of the moves and its rest can come
after that. Behind a variable a comma has two derivations, and both go on alike. -/
theorem derivesAll_residual_cons :
    DerivesAll c.residual (t :: w) ↔ ∃ d, (t, d) ∈ c.moves ∧ DerivesAll d.residual w := by
  cases c with
  | modified s =>
    simp only [moves, declarationMoves, exists_move_cons, exists_move_nil]
    cases s <;> simp [residual, declared]
  | routineBody s =>
    cases s <;> simp only [moves, exists_move_cons, exists_move_nil] <;> simp [residual]
  | afterVariableName =>
    simp only [moves, exists_move_cons, exists_move_nil]
    simp [residual, and_or_left, or_assoc]
    grind
  | _ =>
    simp only [moves, declarationMoves, List.cons_append, List.nil_append, exists_move_cons,
      exists_move_nil]
    simp [residual, declared, and_or_left, or_assoc]

/-- What is still to come is exactly what leads back to the top. -/
theorem derivesAll_residual_iff_run : DerivesAll c.residual w ↔ c.run w = some top := by
  induction w generalizing c with
  | nil => simpa [run] using derivesAll_residual_nil
  | cons t w ih =>
    rw [derivesAll_residual_cons, run]
    simp only [← step_eq_some_iff, ih]
    cases c.step t <;> simp

end Residual

end Control

/-- The grammar derives exactly the words that lead from the top back to it. -/
theorem derives_program_iff_run {w : List Terminal} :
    Derives (.production .program) w ↔ Control.top.run w = some .top := by
  rw [← Control.derivesAll_residual_iff_run, ← derivesAll_singleton, derivesAll_production]
  rfl

end FrontEnd
