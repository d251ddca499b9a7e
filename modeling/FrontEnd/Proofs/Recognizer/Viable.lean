import FrontEnd.Proofs.Recognizer.Control

/-!
# FrontEnd.Proofs.Recognizer.Viable

How the programs of the grammar can begin.

* `Sentence` — a program with the end of input behind it; `Viable` — the words with which a
  sentence can begin.
* `Control.run_completion` — every place of the grammar has a way back to the top.
* `viable_of_run`, `not_viable_of_step_eq_none` — so a word is viable if it leads somewhere, and
  not viable any more behind a terminal that leads nowhere.
-/

namespace FrontEnd

/-- A program of the grammar with the end of input behind it. -/
def Sentence (w : List Terminal) : Prop :=
  ∃ program, Derives (.production .program) program ∧ w = program ++ [.kind .eof]

/-- Some sentence begins with the word. -/
def Viable (w : List Terminal) : Prop := ∃ sentence, Sentence sentence ∧ w <+: sentence

namespace Control

/-- The least that a routine can have behind its header. -/
def bodyCompletion : Storage → List Terminal
  | .external => [.kind .semicolon]
  | .classic | .static => [.kind .lBrace, .kind .rBrace]

/-- A word that leads from here to the end of the declaration, with nothing optional in it. -/
def completion : Control → List Terminal
  | top => []
  | modified _ => [.keyword .varKw, .kind .identifier, .kind .semicolon]
  | externalName | variableName => [.kind .identifier, .kind .semicolon]
  | value => [.kind .null, .kind .semicolon]
  | afterExternalName | afterVariableName | afterValue => [.kind .semicolon]
  | routineName storage =>
    .kind .identifier :: .kind .lParen :: .kind .rParen :: bodyCompletion storage
  | argumentList storage => .kind .lParen :: .kind .rParen :: bodyCompletion storage
  | firstArgument storage | afterArgument storage =>
    .kind .rParen :: bodyCompletion storage
  | nextArgument storage =>
    .kind .identifier :: .kind .rParen :: bodyCompletion storage
  | routineBody storage => bodyCompletion storage
  | statements => [.kind .rBrace]
  | labelColon => [.kind .colon, .kind .rBrace]

theorem run_completion (c : Control) : c.run c.completion = some top := by
  cases c with
  | modified s => cases s <;> rfl
  | routineName s => cases s <;> rfl
  | argumentList s => cases s <;> rfl
  | firstArgument s => cases s <;> rfl
  | afterArgument s => cases s <;> rfl
  | nextArgument s => cases s <;> rfl
  | routineBody s => cases s <;> rfl
  | _ => rfl

end Control

section Viability

variable {c : Control} {t : Terminal} {w : List Terminal}

theorem viable_of_run (h : Control.top.run w = some c) : Viable w := by
  have hrun : Control.top.run (w ++ c.completion) = some .top := by
    rw [Control.run_append, h, Option.bind_some, c.run_completion]
  refine ⟨_, ⟨_, derives_program_iff_run.2 hrun, rfl⟩, ?_⟩
  rw [List.append_assoc]
  exact List.prefix_append _ _

/-- A place where the terminal cannot come, and which is not the top if the terminal is the end
of input. -/
theorem not_viable_of_step_eq_none (h : Control.top.run w = some c) (ht : c.step t = none)
    (heof : t = .kind .eof → c ≠ .top) : ¬Viable (w ++ [t]) := by
  rintro ⟨_, ⟨program, hprogram, rfl⟩, v, hv⟩
  have hrun := derives_program_iff_run.1 hprogram
  rw [List.append_assoc, List.singleton_append] at hv
  -- the terminal is the end of input itself, or it stands in the program
  rcases List.eq_nil_or_concat v with rfl | ⟨v, last, rfl⟩
  · obtain ⟨rfl, hlast⟩ := List.append_inj' hv rfl
    rw [h] at hrun
    exact heof (List.head_eq_of_cons_eq hlast) (Option.some.inj hrun)
  · rw [List.concat_eq_append, ← List.cons_append, ← List.append_assoc] at hv
    obtain ⟨rfl, -⟩ := List.append_inj' hv rfl
    rw [Control.run_append, h, Option.bind_some, Control.run, ht] at hrun
    cases hrun

end Viability

end FrontEnd
