import FrontEnd.Proofs.Recognizer.Follows

/-!
# FrontEnd.Proofs.Recognizer.Productions

Every production follows the grammar: from the place where it may begin it reads tokens up to a
place behind it, and a refusal is right where it stands.

A production that can be refused recoverably is refused because of the lookahead alone. A list
read to its end is not followed by another comma, and that settles which of its derivations the
list has; so the lemmas on lists speak of the token behind the list.

* `Recog.follows_globalVar`, `Recog.follows_routineDeclaration`, `Recog.follows_declaration` —
  the declarations.
* `Recog.follows_program` — the program, which ends at the end of input.
-/

namespace FrontEnd
namespace Recog

open Recognizer Recognizer.Grammar Control

variable {r : Recognizer}

/-! ## Lists -/

theorem step_kind_of_moves_singleton {c d : Control} {kind : TokenKind}
    (hm : c.moves = [(.kind kind, d)]) : c.step (.kind kind) = some d := by
  simp [step, hm]

theorem step_of_moves_singleton {c d : Control} {kind : TokenKind} {token : Token}
    (hm : c.moves = [(.kind kind, d)]) (ht : token.kind ≠ kind) :
    c.step token.terminal = none := by
  have hk := (kind_of_step (step_kind_of_moves_singleton hm)).2
  simp [step_eq_none_iff, hm, Token.terminal_eq_kind_iff hk, ht]

/-- A token behind a commit point, where nothing else could come than what it is not. -/
theorem follows_cut_expect {kind : TokenKind} {what : String} {c d : Control}
    (hd : c.step (.kind kind) = some d) (hw : wanted what = [.kind kind]) (hc : c ≠ top)
    (ht : r.lookahead.kind ≠ kind → c.step r.lookahead.terminal = none) :
    Ends (cut (expect kind what)) r (follows c r (fun _ w e _ => w ≠ [] ∧ e = d) never) := by
  refine follows_cut (follows_expect hd) ?_
  intro _ h
  obtain ⟨hne, rfl⟩ := h
  exact ⟨rfl, hc, ht hne, by simp [hw], by simp [hw, hd]⟩

theorem follows_idList {first : Control} (after next : Control)
    (hf : first.step (.kind .identifier) = some after)
    (ha : after.step (.kind .comma) = some next)
    (hn : next.moves = [(.kind .identifier, after)]) (ht : next ≠ top) :
    Ends idList r (follows first r
      (fun _ w d t => w ≠ [] ∧ d = after ∧ t.kind ≠ .comma)
      (refuses "identifier" (·.kind ≠ .identifier))) := by
  refine follows_bind (follows_expect hf) ?_ (fun _ h => h)
  intro _ w d r' h
  obtain ⟨hw, rfl⟩ := h
  refine follows_mono_never (follows_repeatWhile (fun c _ => c = d)
    (fun c t => c = d ∧ t.kind ≠ .comma) ?_ rfl) (fun _ _ _ _ h => ⟨by simp [hw], h⟩)
  rintro c r rfl
  refine follows_bind_never (follows_matchKind ha) ?_
  intro found w e r' h
  cases found with
  | false =>
    obtain ⟨rfl, rfl, -, hk⟩ := h
    exact follows_pure ⟨rfl, hk⟩
  | true =>
    obtain ⟨hw, rfl⟩ := h
    refine follows_bind_never (follows_cut_expect (step_kind_of_moves_singleton hn) rfl ht
      (step_of_moves_singleton hn)) ?_
    intro _ v e r' h
    obtain ⟨_, rfl⟩ := h
    exact follows_pure ⟨by simp [hw], rfl⟩

attribute [local simp] step_eq_none_iff moves declarationMoves Token.terminal_eq_kind_iff

/-! ## Variables -/

theorem follows_anyM {c d : Control} {kinds : List TokenKind}
    (h : ∀ kind ∈ kinds, c.step (.kind kind) = some d) :
    Ends (kinds.anyM matchKind) r (follows c r (fun found w e t =>
      if found then w ≠ [] ∧ e = d
      else w = [] ∧ e = c ∧ t = r.lookahead ∧ ∀ kind ∈ kinds, t.kind ≠ kind) never) := by
  induction kinds generalizing r with
  | nil => exact follows_pure ⟨rfl, rfl, rfl, by simp⟩
  | cons kind kinds ih =>
    have hd := h kind List.mem_cons_self
    refine follows_bind_never (follows_matchKind hd) ?_
    intro found w e r' h'
    cases found with
    | false =>
      obtain ⟨rfl, rfl, hr, hne⟩ := h'
      refine follows_mono_never (ih fun kind hm => h kind (List.mem_cons_of_mem _ hm)) ?_
      intro found v e t h'
      cases found with
      | false =>
        obtain ⟨rfl, rfl, rfl, hne'⟩ := h'
        exact ⟨rfl, rfl, hr, List.forall_mem_cons.2 ⟨hne, hne'⟩⟩
      | true => exact h'
    | true => exact follows_pure (by simpa using h')

theorem follows_expression :
    Ends expression r (follows value r (fun _ w d _ => w ≠ [] ∧ d = afterValue)
      (refuses "constant expression" (value.step ·.terminal = none))) := by
  refine follows_bind_never (follows_anyM (d := afterValue) (by decide)) ?_
  intro found w d r' h
  cases found with
  | false =>
    obtain ⟨rfl, rfl, -, hne⟩ := h
    exact follows_refuse ⟨rfl, by simpa [constantKinds] using hne, rfl⟩
  | true => exact follows_pure (by simpa using h)

/-- Behind a variable, with its value if it has one. -/
def BehindVariable (d : Control) (t : Token) : Prop :=
  d = afterValue ∨ d = afterVariableName ∧ t.kind ≠ .comma ∧ t.kind ≠ .strictAssign

theorem follows_varDeclaration :
    Ends varDeclaration r (follows variableName r (fun _ w d t => w ≠ [] ∧ BehindVariable d t)
      (refuses "identifier" (·.kind ≠ .identifier))) := by
  refine follows_bind (follows_within (follows_idList afterVariableName
    variableName rfl rfl rfl (by simp))) ?_ (fun _ h => h)
  intro _ w d r' h
  obtain ⟨hw, rfl, hc⟩ := h
  refine follows_bind_never (follows_matchKind (d := value) rfl) ?_
  intro found v e r₁ h
  cases found with
  | false =>
    obtain ⟨rfl, rfl, ht, ha⟩ := h
    exact follows_pure ⟨by simp [hw], .inr ⟨rfl, ht ▸ hc, ha⟩⟩
  | true =>
    obtain ⟨hv, rfl⟩ := h
    refine follows_mono_never (follows_cut (follows_within follows_expression) ?_) ?_
    · intro _ h
      obtain ⟨ht, rfl⟩ := h
      exact ⟨rfl, by simp, ht, by decide, by decide⟩
    · intro _ u d t h
      obtain ⟨hu, rfl⟩ := h
      exact ⟨by simp [hw], .inl rfl⟩

theorem follows_varDeclarationList :
    Ends varDeclarationList r (follows variableName r
      (fun _ w d t => w ≠ [] ∧ BehindVariable d t ∧ t.kind ≠ .comma)
      (refuses "identifier" (·.kind ≠ .identifier))) := by
  refine follows_bind (follows_within follows_varDeclaration) ?_ (fun _ h => h)
  intro _ w d r' h
  obtain ⟨hw, hd⟩ := h
  refine follows_mono_never (follows_repeatWhile BehindVariable
    (fun d t => BehindVariable d t ∧ t.kind ≠ .comma) ?_ hd)
    (fun _ _ _ _ h => ⟨by simp [hw], h⟩)
  intro c r hc
  have step_comma : c.step (.kind .comma) = some variableName := by
    rcases hc with rfl | ⟨rfl, -⟩ <;> rfl
  refine follows_bind_never (follows_matchKind step_comma) ?_
  intro found w e r₁ h
  cases found with
  | false =>
    obtain ⟨rfl, rfl, ht, hk⟩ := h
    exact follows_pure ⟨ht ▸ hc, hk⟩
  | true =>
    obtain ⟨hw, rfl⟩ := h
    refine follows_bind_never (follows_cut (follows_within follows_varDeclaration) ?_) ?_
    · intro _ h
      obtain ⟨ht, rfl⟩ := h
      exact ⟨rfl, by simp, by simpa using ht, by decide, by decide⟩
    · intro _ v d r₂ h
      obtain ⟨_, hd⟩ := h
      exact follows_pure ⟨by simp [hw], hd⟩

/-- The end of a list of variables: a semicolon may come, and nothing else. -/
theorem follows_variableList {storage : Storage} :
    Ends (variableList storage) r (follows (declared storage) r
      (fun _ _ d t => d ≠ top ∧ d.step (.kind .semicolon) = some top ∧
        (t.kind ≠ .semicolon → d.step t.terminal = none)) never) := by
  have list {storage} (hs : declared storage = variableName) :
      Ends (cut (within "var_declaration_list" varDeclarationList)) r
        (follows (declared storage) r (fun _ _ d t => d ≠ top ∧
          d.step (.kind .semicolon) = some top ∧
            (t.kind ≠ .semicolon → d.step t.terminal = none)) never) := by
    rw [hs]
    refine follows_mono_never (follows_cut (follows_within follows_varDeclarationList) ?_) ?_
    · intro _ h
      obtain ⟨ht, rfl⟩ := h
      exact ⟨rfl, by simp, by simpa using ht, by decide, by decide⟩
    · intro _ w d t h
      rcases h with ⟨-, rfl | ⟨rfl, hc, ha⟩, hc'⟩
      · exact ⟨by simp, rfl, fun hs => by simp [hc', hs]⟩
      · exact ⟨by simp, rfl, fun hs => by simp [hc, ha, hs]⟩
  cases storage with
  | external =>
    refine follows_mono_never (follows_cut (follows_within (follows_idList
      afterExternalName externalName rfl rfl rfl (by simp))) ?_) ?_
    · intro _ h
      obtain ⟨ht, rfl⟩ := h
      exact ⟨rfl, by simp [declared], by simpa [declared] using ht, by decide, by decide⟩
    · intro _ w d t h
      obtain ⟨-, rfl, hc⟩ := h
      exact ⟨by simp, rfl, fun hs => by simp [hc, hs]⟩
  | classic => exact list rfl
  | static => exact list rfl

theorem follows_report {c : Control} {storage : Storage} {what : Declared}
    {ok : Unit → Arrival} {no : Refused} (h : ok () [] c r.lookahead) :
    Ends (report storage what) r (follows c r ok no) :=
  ends_modify.2 ⟨[], c, .refl, rfl, h⟩

theorem follows_globalVar {c : Control} {storage : Storage}
    (hc : c.step (.keyword .varKw) = some (declared storage)) :
    Ends (globalVar storage) r (follows c r (fun _ w d _ => w ≠ [] ∧ d = top)
      (refuses "'var'" (·.terminal ≠ .keyword .varKw))) := by
  refine follows_bind (follows_expectKeyword hc) ?_ (fun _ h => h)
  intro _ w d r₁ h
  obtain ⟨hw, rfl⟩ := h
  refine follows_bind_never follows_variableList ?_
  intro _ v d r₂ h
  obtain ⟨hd, hs, ht⟩ := h
  refine follows_bind_never (follows_cut_expect hs rfl hd ht) ?_
  intro _ u d r₃ h
  obtain ⟨-, rfl⟩ := h
  exact follows_report ⟨by simp [hw], rfl⟩

/-! ## Routines -/

theorem follows_argumentList {storage : Storage} :
    Ends argumentList r (follows (Control.argumentList storage) r
      (fun _ w d _ => w ≠ [] ∧ d = Control.routineBody storage)
      (refuses "argument list (or empty '()')" (·.kind ≠ .lParen))) := by
  refine follows_bind (follows_expect (d := firstArgument storage) rfl) ?_
    (fun _ h => h)
  intro _ w d r₁ h
  obtain ⟨hw, rfl⟩ := h
  refine follows_bind_never (follows_matchKind (d := Control.routineBody storage) rfl) ?_
  intro found v e r₂ h
  cases found with
  | false =>
    obtain ⟨rfl, rfl, -, hp⟩ := h
    refine follows_bind_never (follows_cut (follows_within (follows_idList
      (afterArgument storage) (nextArgument storage) rfl rfl rfl (by simp)))
      ?_) ?_
    · intro _ h
      obtain ⟨ht, rfl⟩ := h
      exact ⟨rfl, by simp, by simp [hp, ht], by decide, by simp [wanted, step]⟩
    · intro _ u d r₃ h
      obtain ⟨-, rfl, hc⟩ := h
      refine follows_mono_never (follows_cut_expect (d := Control.routineBody storage) rfl
        rfl (by simp) fun ht => by simp [hc, ht]) ?_
      intro _ x d t h
      obtain ⟨-, rfl⟩ := h
      exact ⟨by simp [hw], rfl⟩
  | true =>
    obtain ⟨-, rfl⟩ := h
    exact follows_pure ⟨by simp [hw], rfl⟩

theorem follows_routineHeader {c : Control} {storage : Storage}
    (hc : c.step (.keyword .routineKw) = some (routineName storage)) :
    Ends routineHeader r (follows c r (fun _ w d _ => w ≠ [] ∧ d = Control.routineBody storage)
      (refuses "'routine'" (·.terminal ≠ .keyword .routineKw))) := by
  refine follows_bind (follows_expectKeyword hc) ?_ (fun _ h => h)
  intro _ w d r₁ h
  obtain ⟨hw, rfl⟩ := h
  refine follows_bind_never (follows_cut_expect (d := Control.argumentList storage) rfl rfl
    (by simp) (step_of_moves_singleton rfl)) ?_
  intro _ v d r₂ h
  obtain ⟨-, rfl⟩ := h
  refine follows_mono_never (follows_cut (follows_within follows_argumentList) ?_) ?_
  · intro _ h
    obtain ⟨ht, rfl⟩ := h
    exact ⟨rfl, by simp, by simpa using ht, by decide, by simp [wanted, step]⟩
  · intro _ u d t h
    obtain ⟨-, rfl⟩ := h
    exact ⟨by simp [hw], rfl⟩

theorem follows_labelDeclaration :
    Ends labelDeclaration r (follows statements r (fun _ w d _ => w ≠ [] ∧ d = statements)
      (refuses "label" (·.kind ≠ .identifier))) := by
  refine follows_bind (follows_expect (d := labelColon) rfl) ?_ (fun _ h => h)
  intro _ w d r' h
  obtain ⟨hw, rfl⟩ := h
  refine follows_mono_never (follows_cut_expect (d := statements) rfl rfl (by simp)
    (step_of_moves_singleton rfl)) ?_
  intro _ v d t h
  obtain ⟨-, rfl⟩ := h
  exact ⟨by simp [hw], rfl⟩

theorem follows_statement :
    Ends statement r (follows statements r (fun _ w d _ => w ≠ [] ∧ d = statements)
      (refuses "label" fun t => t.kind ≠ .semicolon ∧ t.kind ≠ .identifier)) := by
  refine follows_bind_never (follows_matchKind (d := statements) rfl) ?_
  intro found w e r' h
  cases found with
  | false =>
    obtain ⟨rfl, rfl, ht, hs⟩ := h
    refine follows_mono (follows_within follows_labelDeclaration) (fun _ _ _ _ h => h) ?_
    intro _ h
    obtain ⟨hi, rfl⟩ := h
    exact ⟨rfl, ⟨hs, hi⟩, rfl⟩
  | true => exact follows_pure (by simpa using h)

theorem follows_statementList :
    Ends statementList r (follows statements r
      (fun _ _ d t => d = statements ∧ t.kind ≠ .semicolon ∧ t.kind ≠ .identifier) never) := by
  refine follows_repeatWhile (fun c _ => c = statements)
    (fun d t => d = statements ∧ t.kind ≠ .semicolon ∧ t.kind ≠ .identifier) ?_ rfl
  rintro c r rfl
  refine follows_mono_never (follows_attempt (follows_within follows_statement)) ?_
  intro found w d t h
  cases found with
  | false =>
    obtain ⟨-, rfl, -, _, ht, -⟩ := h
    exact ⟨rfl, ht⟩
  | true => exact h

theorem follows_block {c : Control} (hc : c.step (.kind .lBrace) = some statements) :
    Ends block r (follows c r (fun _ w d _ => w ≠ [] ∧ d = top)
      (refuses "statement block" (·.kind ≠ .lBrace))) := by
  refine follows_bind (follows_expect hc) ?_ (fun _ h => h)
  intro _ w d r₁ h
  obtain ⟨hw, rfl⟩ := h
  refine follows_bind_never (follows_within follows_statementList) ?_
  intro _ v d r₂ h
  obtain ⟨rfl, hs, hi⟩ := h
  refine follows_mono_never (follows_cut_expect (d := top) rfl rfl (by simp)
    fun ht => by simp [hs, hi, ht]) ?_
  intro _ u d t h
  obtain ⟨-, rfl⟩ := h
  exact ⟨by simp [hw], rfl⟩

theorem follows_routineBody {storage : Storage} :
    Ends (routineBody storage) r (follows (Control.routineBody storage) r
      (fun _ w d _ => w ≠ [] ∧ d = top) never) := by
  have withBlock {c : Control} (hm : c.moves = [(.kind .lBrace, statements)]) (hc : c ≠ top) :
      Ends (cut (within "block" block)) r
        (follows c r (fun _ w d _ => w ≠ [] ∧ d = top) never) := by
    have step_brace := step_kind_of_moves_singleton hm
    refine follows_cut (follows_within (follows_block step_brace)) ?_
    intro _ h
    obtain ⟨ht, rfl⟩ := h
    exact ⟨rfl, hc, step_of_moves_singleton hm ht, by decide,
      by simp [wanted, -step_eq_none_iff, step_brace]⟩
  cases storage with
  | external =>
    exact follows_cut_expect rfl rfl (by simp)
      (step_of_moves_singleton rfl)
  | classic => exact withBlock rfl (by simp)
  | static => exact withBlock rfl (by simp)

theorem follows_routineDeclaration {c : Control} {storage : Storage}
    (hc : c.step (.keyword .routineKw) = some (routineName storage)) :
    Ends (routineDeclaration storage) r (follows c r (fun _ w d _ => w ≠ [] ∧ d = top)
      (refuses "'routine'" (·.terminal ≠ .keyword .routineKw))) := by
  refine follows_bind (follows_within (follows_routineHeader hc)) ?_ (fun _ h => h)
  intro _ w d r₁ h
  obtain ⟨hw, rfl⟩ := h
  refine follows_bind_never follows_routineBody ?_
  intro _ v d r₂ h
  obtain ⟨-, rfl⟩ := h
  exact follows_report ⟨by simp [hw], rfl⟩

/-! ## Declarations -/

theorem follows_storageModifier :
    Ends storageModifier r (follows top r (fun storage w d t =>
      if storage = .classic then w = [] ∧ d = top ∧ t = r.lookahead ∧
        t.terminal ≠ .keyword .externKw ∧ t.terminal ≠ .keyword .staticKw
      else w ≠ [] ∧ d = modified storage) never) := by
  refine follows_bind_never (follows_matchKeyword (d := modified .external) rfl) ?_
  intro found w d r₁ h
  cases found with
  | false =>
    obtain ⟨rfl, rfl, ht, he⟩ := h
    refine follows_bind_never (follows_matchKeyword (d := modified .static) rfl) ?_
    intro found v e r₂ h
    cases found with
    | false =>
      obtain ⟨rfl, rfl, ht', hs⟩ := h
      exact follows_pure ⟨rfl, rfl, ht'.trans ht, ht' ▸ he, hs⟩
    | true => exact follows_pure (by simpa using h)
  | true => exact follows_pure (by simpa using h)

theorem ends_routine {storage : Storage} {post : Post Unit} :
    Ends (routine storage) r post ↔
      Ends (within "routine_declaration" (routineDeclaration storage)) r
        { post with recoverable := fun e r' =>
            if storage = .classic then post.recoverable e r'
            else post.fatal (r'.syntaxError (.expected
              "variable or routine declaration after storage modifier" r'.lookahead)) r' } := by
  simp only [Ends, routine]
  cases within "routine_declaration" (routineDeclaration storage) r with
  | ok a r' => rfl
  | error stop r' => cases stop with
    | refused refusal => cases refusal with
      | recoverable e =>
        by_cases h : storage = .classic <;> simp [h, cut, refuse, Recognizer.refusal, Refusal.cut]
      | fatal e => rfl
    | misuse => rfl

/-- Behind a storage modifier a routine has to come where no variable did. -/
theorem follows_routine {c : Control} {storage : Storage}
    (hc : c.step (.keyword .routineKw) = some (routineName storage))
    (hm : storage ≠ .classic → c = modified storage)
    (hv : r.lookahead.terminal ≠ .keyword .varKw) :
    Ends (routine storage) r (follows c r (fun _ w d _ => w ≠ [] ∧ d = top)
      (fun t _ => storage = .classic ∧ t.terminal ≠ .keyword .routineKw)) := by
  refine ends_routine.2 ((follows_within (follows_routineDeclaration hc)).mono
    (fun _ _ h => h) ?_ (fun _ _ h => h))
  intro e r' h
  obtain ⟨hr, ht, -⟩ := h
  split
  · rename_i hs
    exact ⟨hr, hs, ht⟩
  · rename_i hs
    obtain rfl := hm hs
    have hl := lookahead_of_cursor_eq hr
    exact ⟨[], _, hr ▸ .refl, rfl, rfl, by simp, by simpa [hl] using ⟨hv, ht⟩, by decide,
      by cases storage <;> decide⟩

theorem follows_declaration :
    Ends declaration r (follows top r (fun _ w d _ => w ≠ [] ∧ d = top)
      (fun t _ => top.step t.terminal = none)) := by
  refine follows_bind_never follows_storageModifier ?_
  rintro storage w c r₁ h
  have place : storage = .classic ∧ c = top ∨ c = modified storage := by
    split at h
    · exact .inl ⟨‹_›, h.2.1⟩
    · exact .inr h.2
  have hv : c.step (.keyword .varKw) = some (declared storage) := by
    rcases place with ⟨rfl, rfl⟩ | rfl <;> rfl
  have hr : c.step (.keyword .routineKw) = some (routineName storage) := by
    rcases place with ⟨rfl, rfl⟩ | rfl <;> rfl
  refine follows_bind_never (follows_attempt (follows_within (follows_globalVar hv))) ?_
  intro found v d r₂ h'
  cases found with
  | false =>
    obtain ⟨rfl, rfl, ht, _, hn, -⟩ := h'
    refine follows_mono (follows_routine hr ?_ hn) ?_ ?_
    · intro hs
      rw [if_neg hs] at h
      exact h.2
    · intro _ u e t h
      obtain ⟨hu, rfl⟩ := h
      exact ⟨by simp [hu], rfl⟩
    · intro fault h
      obtain ⟨rfl, hn'⟩ := h
      obtain ⟨rfl, rfl, -, he, hs⟩ := h
      rw [ht] at hn hn' ⊢
      exact ⟨rfl, rfl, by simpa using ⟨hn, hn', he, hs⟩⟩
  | true =>
    obtain ⟨hv, rfl⟩ := h'
    exact follows_pure ⟨by simp [hv], rfl⟩

theorem follows_program :
    Ends program r (follows top r (fun _ _ d t => d = top ∧ t.kind = .eof) never) := by
  have loop : Ends (repeatWhile (attempt "declaration" declaration)) r
      (follows top r (fun _ _ d t => d = top ∧ top.step t.terminal = none) never) := by
    refine follows_repeatWhile (fun c _ => c = top)
      (fun d t => d = top ∧ top.step t.terminal = none) ?_ rfl
    rintro c r rfl
    refine follows_mono_never (follows_attempt (follows_within follows_declaration)) ?_
    intro found w d t h
    cases found with
    | false =>
      obtain ⟨-, rfl, -, _, ht⟩ := h
      exact ⟨rfl, ht⟩
    | true => exact h
  refine follows_bind_never loop ?_
  intro _ w d r' h
  obtain ⟨rfl, ht⟩ := h
  unfold Ends endOfInput
  by_cases he : r'.lookahead.kind = .eof
  · rw [if_pos he]
    exact ⟨[], top, .refl, rfl, rfl, he⟩
  · rw [if_neg he]
    exact ⟨[], top, .refl, rfl, rfl, rfl, ht, he⟩

end Recog
end FrontEnd
