import FrontEnd.Proofs.Recognizer.Parallel
import FrontEnd.Proofs.Recognizer.Recoverable

/-!
# FrontEnd.Proofs.Recognizer.Prefix

A program with more tokens behind it in place of the end of input.

* `Recog.Closed` — a computation that can only succeed on a token it consumes: it has no need to
  look at what comes behind. A declaration is closed (`Recog.closed_declaration`).
* `Recog.Closed.succeeds` — so it succeeds just so where the tokens go on differently behind the
  last one it consumes.
* `Recognizer.Ahead` — two recognizers in front of the same tokens, the first of which has the end
  of input behind them.
* `Recognizer.Ahead.program` — where the first one reads a program, the second one reads it, too,
  and goes on with what comes behind as with a program.
-/

namespace FrontEnd

open Recognizer Recognizer.Grammar

namespace Recog

inductive Closed : {α : Type} → Recog α → Prop
  | refuse {α : Type} (what : String) : Closed (refuse what : Recog α)
  | expect {kind : TokenKind} (what : String) : kind ≠ .eof → Closed (expect kind what)
  | bind {α β : Type} {body : Recog α} {f : α → Recog β} : Blind body → (∀ a, Closed (f a)) →
    Closed (body >>= f)
  | reported {body : Recog Unit} (storage : Storage) (what : Declared) : Closed body →
    Closed (body >>= fun _ => report storage what)
  | cut {α : Type} {body : Recog α} : Closed body → Closed (cut body)
  | within {α : Type} {body : Recog α} (name : String) : Closed body → Closed (within name body)
  | orElse {body other : Recog Unit} (name : String) : Closed body → Closed other →
    Closed (attempt name body >>= fun found => if found then pure () else other)
  | otherwise {α : Type} {body other : Recog α} : Closed body → Closed other →
    Closed (otherwise body other)

theorem attempt_eq_ok_true_iff {name : String} {body : Recog Unit} {r r' : Recognizer} :
    attempt name body r = .ok true r' ↔ within name body r = .ok () r' := by
  unfold attempt
  cases hw : within name body r with
  | ok a r₁ => simp
  | error stop r₁ =>
    refine ⟨fun h => ?_, nofun⟩
    cases stop with
    | refused refusal => cases refusal with
      | recoverable e =>
        dsimp only at h
        split at h <;> cases h
      | fatal e => cases h
    | misuse => cases h

theorem bind_eq_ok_iff {α β : Type} {body : Recog α} {f : α → Recog β} {b : β} {r r' : Recognizer} :
    (body >>= f) r = .ok b r' ↔ ∃ a r₁, body r = .ok a r₁ ∧ f a r₁ = .ok b r' := by
  cases hb : body r with
  | ok a r₁ =>
    rw [bind_of_ok hb]
    constructor
    · intro h
      exact ⟨a, r₁, rfl, h⟩
    · rintro ⟨_, _, ⟨⟩, h⟩
      exact h
  | error stop r₁ =>
    rw [bind_of_error hb]
    exact ⟨nofun, by rintro ⟨_, _, ⟨⟩, _⟩⟩

theorem within_eq_ok_iff {α : Type} {name : String} {body : Recog α} {a : α} {r r' : Recognizer} :
    within name body r = .ok a r' ↔
      ∃ r₁, body (r.enter name) = .ok a r₁ ∧ r' = r₁.leave name := by
  unfold within
  cases hb : body (r.enter name) with
  | ok a r₁ =>
    constructor
    · rintro ⟨⟩
      exact ⟨r₁, rfl, rfl⟩
    · rintro ⟨_, ⟨⟩, rfl⟩
      rfl
  | error stop r₁ =>
    refine ⟨fun h => ?_, by rintro ⟨_, ⟨⟩, _⟩⟩
    cases stop <;> cases h

theorem otherwise_eq_ok_iff {α : Type} {body other : Recog α} {a : α} {r r' : Recognizer} :
    otherwise body other r = .ok a r' ↔ body r = .ok a r' ∨
      ∃ e r₁, body r = .error (.refused (.recoverable e)) r₁ ∧ other r₁ = .ok a r' := by
  unfold otherwise
  cases hb : body r with
  | ok a r₁ => simp
  | error stop r₁ => cases stop with
    | refused refusal => cases refusal with
      | recoverable e =>
        constructor
        · exact fun h => .inr ⟨e, r₁, rfl, h⟩
        · rintro (⟨⟨⟩⟩ | ⟨_, _, ⟨⟩, h⟩)
          exact h
      | fatal e => simp
    | misuse => simp

theorem cut_eq_ok_iff {α : Type} {body : Recog α} {a : α} {r r' : Recognizer} :
    cut body r = .ok a r' ↔ body r = .ok a r' := by
  unfold cut
  cases hb : body r with
  | ok a r₁ => rfl
  | error stop r₁ => cases stop <;> exact ⟨nofun, nofun⟩

namespace Closed

variable {α : Type} {body : Recog α}

theorem blind (h : Closed body) : Blind body := by
  induction h with
  | refuse what => exact .refuse what
  | expect what _ => exact .expect _ what
  | bind hb _ ihf => exact .bind hb ihf
  | reported storage what _ ih => exact .bind ih fun _ => .report storage what
  | cut _ ih => exact .cut ih
  | within name _ ih => exact .within name ih
  | orElse name _ _ ih iho => exact .bind (.attempt name ih) fun found => .ite found (.pure ()) iho
  | otherwise _ _ ih iho => exact .otherwise ih iho

end Closed

end Recog

/-- Nothing is left but the end of input. -/
def Recognizer.Exhausted (r : Recognizer) : Prop := r.lookahead.kind = .eof ∧ r.rest = []

theorem Recognizer.Exhausted.consume {r : Recognizer} (h : r.Exhausted) : r.consume.Exhausted := by
  simp [Exhausted, Recognizer.consume, h.2]

theorem Recognizer.Exhausted.step {r r' : Recognizer} (h : r.Exhausted)
    (hstep : Step False r r') : r'.Exhausted := by
  cases hstep with
  | note | nest => exact h
  | token | keyword => exact h.consume
  | poison judging => exact judging.elim

theorem Recognizer.Exhausted.steps {r r' : Recognizer} (h : r.Exhausted)
    (hsteps : Steps False r r') : r'.Exhausted := by
  induction hsteps with
  | refl => exact h
  | tail _ hstep ih => exact ih.step hstep

namespace Recog.Closed

variable {α : Type} {body : Recog α} {a : α} {r r' s : Recognizer}

/-- There is no token to succeed on. -/
theorem fails (h : Closed body) (hr : r.Exhausted) : body r ≠ .ok a r' := by
  intro he
  induction h generalizing r r' with
  | refuse what => cases he
  | @expect kind what hk =>
    obtain ⟨found, r₁, hm, he⟩ := bind_eq_ok_iff.1 he
    have : r.lookahead.kind ≠ kind := fun heq => hk (heq.symm.trans hr.1)
    rw [Recognizer.matchKind, if_neg this] at hm
    cases hm
    cases he
  | bind hb _ ihf =>
    obtain ⟨a, r₁, hr₁, he⟩ := bind_eq_ok_iff.1 he
    exact ihf a (hr.steps (leaves_of_ok hr₁ ▸ hb.steps r)) he
  | reported storage what _ ih =>
    obtain ⟨_, r₁, hr₁, -⟩ := bind_eq_ok_iff.1 he
    exact ih hr hr₁
  | cut _ ih => exact ih hr (cut_eq_ok_iff.1 he)
  | within name _ ih =>
    obtain ⟨r₁, hr₁, -⟩ := within_eq_ok_iff.1 he
    exact ih (r := r.enter name) hr hr₁
  | orElse name hc _ ih iho =>
    obtain ⟨found, r₁, hr₁, he⟩ := bind_eq_ok_iff.1 he
    cases found with
    | true =>
      obtain ⟨r₂, hr₂, -⟩ := within_eq_ok_iff.1 (attempt_eq_ok_true_iff.1 hr₁)
      exact ih (r := r.enter name) hr hr₂
    | false => exact iho (hr.steps (leaves_of_ok hr₁ ▸ (Blind.attempt name hc.blind).steps r)) he
  | otherwise hc _ ih iho =>
    obtain hr₁ | ⟨e, r₁, hr₁, he⟩ := otherwise_eq_ok_iff.1 he
    · exact ih hr hr₁
    · exact iho (hr.steps (leaves_of_error hr₁ ▸ hc.blind.steps r)) he

/-- A success is one on the other recognizer as well, even if the first one is exhausted by it. -/
theorem succeeds {rel : Recognizer → Recognizer → Prop} (sim : Simulation rel Exhausted)
    (h : Closed body) (hrel : rel r s) (he : body r = .ok a r') :
    ∃ s', body s = .ok a s' ∧ rel r' s' := by
  induction h generalizing r r' s with
  | refuse what => cases he
  | @expect kind what hk =>
    have ho : ¬r.Exhausted := fun hr => (Closed.expect what hk).fails hr he
    obtain ⟨found, r₁, hm, he⟩ := bind_eq_ok_iff.1 he
    cases found with
    | false => cases he
    | true =>
      cases he
      obtain ⟨s₁, hs₁, hrel⟩ := Alike.of_ok (hm ▸ sim.matchKind kind hrel ho)
      exact ⟨s₁, bind_eq_ok_iff.2 ⟨true, s₁, hs₁, rfl⟩, hrel⟩
  | bind hb hf ihf =>
    obtain ⟨a, r₁, hr₁, he⟩ := bind_eq_ok_iff.1 he
    have ho : ¬r₁.Exhausted := fun hr => (hf a).fails hr he
    obtain ⟨s₁, hs₁, hrel⟩ := hb.ok_of_ok sim hrel hr₁ ho
    obtain ⟨s', hs', hrel⟩ := ihf a hrel he
    exact ⟨s', bind_eq_ok_iff.2 ⟨a, s₁, hs₁, hs'⟩, hrel⟩
  | reported storage what _ ih =>
    obtain ⟨_, r₁, hr₁, he⟩ := bind_eq_ok_iff.1 he
    obtain ⟨s₁, hs₁, hrel⟩ := ih hrel hr₁
    cases he
    exact ⟨_, bind_eq_ok_iff.2 ⟨(), s₁, hs₁, rfl⟩, sim.report storage what hrel⟩
  | cut _ ih =>
    obtain ⟨s', hs', hrel⟩ := ih hrel (cut_eq_ok_iff.1 he)
    exact ⟨s', cut_eq_ok_iff.2 hs', hrel⟩
  | within name _ ih =>
    obtain ⟨r₁, hr₁, rfl⟩ := within_eq_ok_iff.1 he
    obtain ⟨s₁, hs₁, hrel⟩ := ih (sim.enter name hrel) hr₁
    exact ⟨_, within_eq_ok_iff.2 ⟨s₁, hs₁, rfl⟩, sim.leave name hrel⟩
  | orElse name hc ho ih iho =>
    obtain ⟨found, r₁, hr₁, he⟩ := bind_eq_ok_iff.1 he
    cases found with
    | true =>
      cases he
      obtain ⟨r₂, hr₂, rfl⟩ := within_eq_ok_iff.1 (attempt_eq_ok_true_iff.1 hr₁)
      obtain ⟨s₂, hs₂, hrel⟩ := ih (sim.enter name hrel) hr₂
      have hs := attempt_eq_ok_true_iff.2 (within_eq_ok_iff.2 ⟨s₂, hs₂, rfl⟩)
      exact ⟨_, bind_eq_ok_iff.2 ⟨true, _, hs, rfl⟩, sim.leave name hrel⟩
    | false =>
      obtain ⟨s₁, hs₁, hrel⟩ := (Blind.attempt name hc.blind).ok_of_ok sim hrel hr₁
        fun hr => ho.fails hr he
      obtain ⟨s', hs', hrel⟩ := iho hrel he
      exact ⟨s', bind_eq_ok_iff.2 ⟨false, s₁, hs₁, hs'⟩, hrel⟩
  | otherwise hc ho ih iho =>
    obtain hr₁ | ⟨e, r₁, hr₁, he⟩ := otherwise_eq_ok_iff.1 he
    · obtain ⟨s', hs', hrel⟩ := ih hrel hr₁
      exact ⟨s', otherwise_eq_ok_iff.2 (.inl hs'), hrel⟩
    · obtain ⟨e', s₁, hs₁, hrel⟩ := hc.blind.recoverable_of_recoverable sim hrel hr₁
        fun hr => ho.fails hr he
      obtain ⟨s', hs', hrel⟩ := iho hrel he
      exact ⟨s', otherwise_eq_ok_iff.2 (.inr ⟨e', s₁, hs₁, hs'⟩), hrel⟩

end Recog.Closed

namespace Recog

/-! ## Declarations -/

theorem closed_globalVar (storage : Storage) : Closed (globalVar storage) :=
  .bind (.expectKeyword _ _) fun _ => .bind (composed_variableList storage).blind fun _ =>
    .reported _ _ (.cut (.expect _ (by decide)))

theorem closed_block : Closed block :=
  .bind (.expect _ _) fun _ => .bind (.within _ composed_statementList.blind) fun _ =>
    .cut (.expect _ (by decide))

theorem closed_routineBody (storage : Storage) : Closed (routineBody storage) := by
  cases storage with
  | external => exact .cut (.expect _ (by decide))
  | classic | static => exact .cut (.within _ closed_block)

theorem closed_routineDeclaration (storage : Storage) : Closed (routineDeclaration storage) :=
  .bind (.within _ composed_routineHeader.blind) fun _ => .reported _ _ (closed_routineBody storage)

theorem closed_routine (storage : Storage) : Closed (routine storage) := by
  by_cases h : storage = .classic
  · rw [h, routine_classic]
    exact .within _ (closed_routineDeclaration _)
  · rw [routine_modified h]
    exact .otherwise (.within _ (closed_routineDeclaration _)) (.cut (.refuse _))

/-- A declaration ends with the semicolon or the brace that it consumes. -/
theorem closed_declaration : Closed declaration :=
  .bind composed_storageModifier.blind fun storage =>
    .orElse _ (closed_globalVar storage) (closed_routine storage)

section Program

variable {r r' : Recognizer}

theorem follows_attempt_declaration :
    Ends (attempt "declaration" declaration) r
      (follows .top r (fun found w _ _ => if found then w ≠ [] else w = []) never) := by
  refine follows_mono_never (follows_attempt (follows_within follows_declaration)) ?_
  intro found w d t h
  cases found with
  | false => exact h.1
  | true => exact h.1

/-- A program goes on behind a declaration as a program. -/
theorem program_of_declaration (h : attempt "declaration" declaration r = .ok true r') :
    r'.pending < r.pending ∧ program r = program r' := by
  have ends := follows_attempt_declaration (r := r)
  unfold Ends at ends
  rw [h] at ends
  obtain ⟨w, d, hreads, -, hw⟩ := ends
  have hlt : r'.pending < r.pending := hreads.pending_lt hw
  refine ⟨hlt, ?_⟩
  have loop : repeatWhile (attempt "declaration" declaration) r =
      repeatWhile (attempt "declaration" declaration) r' := by
    rw [repeatWhile_eq, bind_of_ok h, goesOn, if_pos ⟨rfl, hlt⟩]
  simp only [program, bind, EStateM.bind, loop]

/-- Where there is no declaration, a program ends. -/
theorem program_of_no_declaration (h : attempt "declaration" declaration r = .ok false r') :
    r'.lookahead = r.lookahead ∧ program r = endOfInput r' := by
  have ends := follows_attempt_declaration (r := r)
  unfold Ends at ends
  rw [h] at ends
  obtain ⟨w, d, hreads, -, rfl⟩ := ends
  refine ⟨lookahead_of_cursor_eq hreads.eq_of_nil, ?_⟩
  have loop : repeatWhile (attempt "declaration" declaration) r = .ok () r' := by
    rw [repeatWhile_eq, bind_of_ok h]
    rfl
  rw [program, bind_of_ok loop]

theorem program_of_error {stop : Stop} (h : attempt "declaration" declaration r = .error stop r') :
    program r = .error stop r' := by
  have loop : repeatWhile (attempt "declaration" declaration) r = .error stop r' := by
    rw [repeatWhile_eq, bind_of_error h]
  rw [program, bind_of_error loop]

/-- At the end of input a program is read without doing anything. -/
theorem untouched_of_program (h : program r = .ok () r') (he : r.lookahead.kind = .eof) :
    Untouched r r' := by
  have ends := follows_program (r := r)
  unfold Ends at ends
  rw [h] at ends
  obtain ⟨w, d, hreads, -⟩ := ends
  have hc : r'.cursor = r.cursor := (hreads.of_eof he).2
  have hn := (blind_program.restores r).of_ok h
  rw [← leaves_of_ok h] at hc hn ⊢
  exact blind_program.untouched hc hn

end Program

end Recog

namespace Recognizer

/-- The second recognizer stands in front of the same tokens as the first one. Behind them the
first one has the end of input, and the second one has others. -/
structure Ahead (later : TokenStream) (r s : Recognizer) : Prop where
  tokens : ∃ left last, (∀ t ∈ left, t.kind ≠ .eof) ∧
    r.lookahead :: r.rest = left ++ [Token.eof last] ∧ s.lookahead :: s.rest = left ++ later
  file : s.file = r.file
  line : s.line = r.line
  nesting : s.nesting = r.nesting
  size : s.matched.size = r.matched.size

namespace Ahead

open Recog

variable {later : TokenStream} {r r' s : Recognizer}

theorem at_end (h : Ahead later r s) (he : r.lookahead.kind = .eof) :
    r.Exhausted ∧ s.lookahead :: s.rest = later := by
  obtain ⟨left, last, hleft, hr, hs⟩ := h.tokens
  cases left with
  | nil => exact ⟨⟨he, (List.cons.inj hr).2⟩, hs⟩
  | cons t left =>
    refine absurd he ?_
    rw [(List.cons.inj hr).1]
    exact hleft t List.mem_cons_self

theorem before_end (h : Ahead later r s) (hr : ¬r.Exhausted) :
    s.lookahead = r.lookahead ∧ ∃ left last, (∀ t ∈ left, t.kind ≠ .eof) ∧
      r.rest = left ++ [Token.eof last] ∧ s.rest = left ++ later := by
  obtain ⟨left, last, hleft, hrt, hst⟩ := h.tokens
  cases left with
  | nil =>
    obtain ⟨hl, ht⟩ := List.cons.inj hrt
    exact absurd ⟨by rw [hl]; rfl, ht⟩ hr
  | cons t left =>
    obtain ⟨hl, ht⟩ := List.cons.inj hrt
    obtain ⟨hl', ht'⟩ := List.cons.inj hst
    exact ⟨hl'.trans hl.symm, left, last, fun t ht => hleft t (List.mem_cons_of_mem _ ht), ht, ht'⟩

theorem note {level level' : Level} {event event' : RecognizerEvent} (h : Ahead later r s) :
    Ahead later (r.note level event) (s.note level' event') :=
  ⟨h.tokens, h.file, h.line, h.nesting, h.size⟩

theorem enter (name : String) (h : Ahead later r s) : Ahead later (r.enter name) (s.enter name) :=
  ⟨h.tokens, h.file, h.line, congrArg (name :: ·) h.nesting, h.size⟩

theorem leave (name : String) (h : Ahead later r s) : Ahead later (r.leave name) (s.leave name) :=
  ⟨h.tokens, h.file, h.line, congrArg List.tail h.nesting, h.size⟩

theorem consume (hlater : later ≠ []) (h : Ahead later r s) (hr : ¬r.Exhausted) :
    Ahead later r.consume s.consume := by
  have next {tokens : TokenStream} {t : Token} (h : tokens ≠ []) :
      tokens.headD t :: tokens.tail = tokens := by
    cases tokens with
    | nil => exact absurd rfl h
    | cons => rfl
  obtain ⟨hl, left, last, hleft, hrt, hst⟩ := h.before_end hr
  refine ⟨⟨left, last, hleft, ?_, ?_⟩, h.file, h.line, h.nesting, ?_⟩
  · exact (next (by simp [hrt])).trans hrt
  · exact (next (by simp [hst, hlater])).trans hst
  · simp [Recognizer.consume, h.size]

theorem pending (h : Ahead later r s) (hr : ¬r.Exhausted) :
    s.pending + 1 = r.pending + later.length := by
  obtain ⟨hl, left, last, -, hrt, hst⟩ := h.before_end hr
  simp only [Recognizer.pending, hl, hrt, hst, List.length_append, List.length_singleton]
  omega

theorem simulation (hlater : later ≠ []) : Simulation (Ahead later) Exhausted where
  nesting h := h.nesting
  terminal h hr := congrArg Token.terminal (h.before_end hr).1
  takeToken h hr := h.note.consume hlater hr
  takeKeyword {r s} k h hr := by
    have next : Ahead later (r.announce (.matchedKeyword k)).consume
        (s.announce (.matchedKeyword k)).consume :=
      h.note.consume hlater fun hx => hr hx.consume
    have hline := congrArg Token.line (next.before_end hr).1
    exact ⟨next.tokens, next.file, hline, next.nesting, next.size⟩
  rejectToken _ h := h.note
  rejectKeyword _ h := h.note
  report _ _ h := h.note
  enter := enter
  leave := leave
  size h h' := by rw [h.size, h'.size]
  pending h h' hr hr' := by
    have := h.pending hr
    have := h'.pending hr'
    omega
  spent := Exhausted.step

theorem untouched (h : Ahead later r s) (hr : Untouched r r') : Ahead later r' s := by
  rw [hr]
  exact ⟨h.tokens, h.file, h.line, h.nesting, h.size⟩

/-- Where the first recognizer reads a program, the second one reads it, too, and has then to read
a program from what comes behind. The induction is on the declarations that the first one reads. -/
theorem program (hlater : later ≠ []) (h : Ahead later r s) (hr : program r = .ok () r') :
    ∃ s', program s = program s' ∧ Ahead later r' s' ∧ s'.lookahead :: s'.rest = later := by
  induction hn : r.pending using Nat.strongRecOn generalizing r s with
  | ind n ih =>
    by_cases he : r.lookahead.kind = .eof
    · exact ⟨s, rfl, h.untouched (untouched_of_program hr he), (h.at_end he).2⟩
    · cases hd : attempt "declaration" declaration r with
      | ok found r₁ =>
        cases found with
        | true =>
          obtain ⟨hlt, hgo⟩ := program_of_declaration hd
          have closed : Closed (within "declaration" declaration) := .within _ closed_declaration
          obtain ⟨s₁, hs₁, h₁⟩ :=
            closed.succeeds (simulation hlater) h (attempt_eq_ok_true_iff.1 hd)
          obtain ⟨-, hgo'⟩ := program_of_declaration (attempt_eq_ok_true_iff.2 hs₁)
          rw [hgo] at hr
          rw [hgo']
          exact ih _ (hn ▸ hlt) h₁ hr rfl
        | false =>
          obtain ⟨hl, hend⟩ := program_of_no_declaration hd
          rw [hend, endOfInput, if_neg (by rwa [hl])] at hr
          cases hr
      | error stop r₁ =>
        rw [program_of_error hd] at hr
        cases hr

end Ahead
end Recognizer
end FrontEnd
