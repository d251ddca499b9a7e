import FrontEnd.Proofs.Recognizer.Continuation
import FrontEnd.Proofs.Recognizer.Session

/-!
# FrontEnd.Proofs.Recognizer.Finality

A verdict stands, whatever a recognizer is asked for after it.

* `Recognizer.Moves` — what happens to a recognizer that is asked for operations and for verdicts.
  All sessions are such (`Session.moves_of_mem_run`).
* `Recognizer.recognize_of_poisoned` — a poisoned recognizer refuses to judge, and does nothing.
* `Recognizer.recognize_of_eof` — one that looks at an end of input and is not poisoned accepts, and
  does nothing but report.
* `Recognizer.Moves.poisoned`, `Recognizer.Moves.settled` — a recognizer stays poisoned; and it
  stays `Recognizer.Settled` in front of its end of input.
* `Recognizer.recognize_final` — so every verdict is repeated by all those behind it.
-/

namespace FrontEnd

/-- The tokens behind the first end of input. -/
def TokenStream.behindEof (tokens : TokenStream) : TokenStream :=
  tokens.drop (tokens.beforeEof.length + 1)

/-- An end of input is not one of the tokens in front of the first one. -/
theorem TokenStream.length_beforeEof_le {tokens : TokenStream} {k : Nat}
    (h : (tokens.endless k).kind = .eof) : tokens.beforeEof.length ≤ k := by
  by_contra hlt
  have hk : k < tokens.beforeEof.length := Nat.lt_of_not_le hlt
  have hget : tokens.beforeEof[k] = tokens.endless k := by
    have hle : k < tokens.length :=
      Nat.lt_of_lt_of_le hk (List.takeWhile_prefix _).length_le
    rw [endless, List.getD_eq_getElem _ _ hle]
    exact (List.takeWhile_prefix _).getElem hk
  have hmem : tokens.endless k ∈ tokens.beforeEof := hget ▸ List.getElem_mem hk
  have := List.all_eq_true.1 List.all_takeWhile _ hmem
  simp [h] at this

namespace Recognizer

open Recog

/-- What happens to a recognizer that is asked for operations and for verdicts, one thing at a time.
Productions may be open meanwhile. -/
inductive Move : Recognizer → Recognizer → Prop
  | step {r r' : Recognizer} : Step False r r' → Move r r'
  | verdict {r : Recognizer} : Move r (leaves recognize r)

abbrev Moves : Recognizer → Recognizer → Prop := Relation.ReflTransGen Move

variable {r r' : Recognizer}

theorem Steps.moves (h : Steps False r r') : Moves r r' := by
  induction h with
  | refl => exact .refl
  | tail _ hstep ih => exact ih.tail (.step hstep)

/-- Moves are steps, of which those that poison are taken by verdicts. -/
theorem Moves.steps (h : Moves r r') : Steps True r r' := by
  induction h with
  | refl => exact .refl
  | tail _ hmove ih =>
    cases hmove with
    | step hstep =>
      refine ih.tail ?_
      cases hstep with
      | note he => exact .note he
      | token => exact .token
      | keyword hk => exact .keyword hk
      | nest names => exact .nest names
      | poison judging => exact judging.elim
    | verdict => exact ih.trans ((Operates.recognize trivial).steps _)

theorem recognize_of_poisoned (h : r.poisoned = true) :
    recognize r = .error (.refused (.fatal ⟨⟨.poisoned, r.file, r.line⟩, none⟩)) r := by
  unfold recognize
  rw [if_pos h]

theorem poisoned_of_accepted (h : recognize r = .ok () r') :
    r.poisoned = false ∧ r'.poisoned = false := by
  obtain ⟨hp, r₁, hr₁, rfl⟩ := recognize_eq_ok_iff.1 h
  have kept : r₁.poisoned = r.begun.poisoned :=
    Steps.poisoned (leaves_of_ok hr₁ ▸ blind_program.steps r.begun)
  exact ⟨hp, kept.trans hp⟩

theorem poisoned_of_refused {stop : Stop} (h : recognize r = .error stop r') :
    r'.poisoned = true := by
  cases stop with
  | misuse => exact absurd h (recognize_ne_misuse r r')
  | refused refusal =>
    unfold recognize at h
    cases hp : r.poisoned with
    | true =>
      rw [hp] at h
      cases h
      exact hp
    | false =>
      rw [hp] at h
      cases hw : within "program" Grammar.program (r.note .debug (.recognizing r.file)) with
      | ok a r₁ =>
        rw [hw] at h
        cases h
      | error stop r₁ =>
        rw [hw] at h
        cases stop <;> cases h
        rfl

/-- In front of an end of input there is no program to read. -/
theorem recognize_of_eof (hp : r.poisoned = false) (he : r.lookahead.kind = .eof) :
    ∃ r', recognize r = .ok () r' ∧ Untouched r r' := by
  cases hs : recognize r with
  | ok a r' =>
    obtain ⟨w, hreads, -⟩ := reads_of_accepted hp hs
    obtain ⟨-, hc⟩ := hreads.of_eof he
    have operates : Operates True recognize := .recognize trivial
    have hsteps : Steps True r r' := leaves_of_ok hs ▸ operates.steps r
    refine ⟨r', rfl, ?_⟩
    rcases hsteps.still with hlt | heq
    · rw [matched_size_of_cursor_eq hc] at hlt
      exact absurd hlt (Nat.lt_irrefl _)
    · rw [(operates.restores r).of_ok hs, (poisoned_of_accepted hs).2, ← hp] at heq
      exact heq
  | error stop r' =>
    obtain ⟨error, w, d, -, hreads, hrun, hrejects⟩ := rejects_of_refused hp hs
    obtain ⟨rfl, hc⟩ := hreads.of_eof he
    have hl : r'.lookahead.kind = .eof := by rw [lookahead_of_cursor_eq hc, he]
    exact absurd (Option.some.inj hrun).symm (hrejects.ne_top_of_eof hl)

/-- The refusal to judge is for poisoned recognizers only. -/
theorem poisoned_iff : r.poisoned = true ↔
    ∃ error r', recognize r = .error (.refused (.fatal error)) r' ∧
      error.located.error = .poisoned := by
  constructor
  · exact fun h => ⟨_, _, recognize_of_poisoned h, rfl⟩
  · rintro ⟨error, r', hs, he⟩
    by_contra hp
    obtain ⟨_, w, d, hstop, -, -, hrejects⟩ := rejects_of_refused (Bool.eq_false_iff.2 hp) hs
    cases hstop
    rw [he] at hrejects
    exact hrejects

/-- It has nothing left but the end of input, and may still be asked for a verdict. -/
def Settled (r : Recognizer) : Prop := r.poisoned = false ∧ r.Exhausted

namespace Settled

theorem step (h : Settled r) (hstep : Step False r r') : Settled r' :=
  ⟨(Steps.poisoned (.single hstep)).trans h.1, h.2.step hstep⟩

theorem recognize (h : Settled r) : ∃ r', recognize r = .ok () r' ∧ Untouched r r' :=
  recognize_of_eof h.1 h.2.1

theorem leaves_recognize (h : Settled r) : Settled (leaves Recognizer.recognize r) := by
  obtain ⟨r', hr, untouched⟩ := h.recognize
  rw [leaves_of_ok hr, untouched]
  exact h

end Settled

/-- An acceptance leaves nothing but the end of input, if nothing stands behind the first one. -/
theorem settled_of_accepted {tokens : TokenStream} {k : Nat} (h : StandsAt tokens k r)
    (hbehind : tokens.behindEof = []) (hr : recognize r = .ok () r') : Settled r' := by
  obtain ⟨hp, hp'⟩ := poisoned_of_accepted hr
  obtain ⟨-, -, -, heof⟩ := reads_of_accepted hp hr
  have steps : Steps True r r' := leaves_of_ok hr ▸ (Operates.recognize trivial).steps r
  obtain ⟨k', hk'⟩ := h.steps steps
  refine ⟨hp', heof, ?_⟩
  have hle : tokens.beforeEof.length ≤ k' :=
    TokenStream.length_beforeEof_le (hk'.lookahead ▸ heof)
  have hlength := List.drop_eq_nil_iff.1 hbehind
  rw [hk'.rest, List.drop_eq_nil_iff]
  omega

/-- A refusal stays for good. -/
theorem Moves.poisoned (h : Moves r r') (hp : r.poisoned = true) : r'.poisoned = true := by
  induction h with
  | refl => exact hp
  | tail _ hmove ih =>
    cases hmove with
    | step hstep => exact (Steps.poisoned (.single hstep)).trans ih
    | verdict =>
      rw [leaves_of_error (recognize_of_poisoned ih)]
      exact ih

theorem Moves.settled (h : Moves r r') (hr : Settled r) : Settled r' := by
  induction h with
  | refl => exact hr
  | tail _ hmove ih =>
    cases hmove with
    | step hstep => exact ih.step hstep
    | verdict => exact ih.leaves_recognize

/-- Verdicts are final, whenever a recognizer that was fresh at first is asked for one, and whatever
it is asked for afterwards. Behind a refusal every verdict is the refusal to judge, which names the
file, the line that the recognizer is on and nothing else, and leaves it as it is. Behind an
acceptance, if no token stands behind the first end of input, every verdict is an acceptance, which
does nothing but report. Operations without a verdict never poison a recognizer, however they end,
and only a poisoned one refuses to judge. -/
theorem recognize_final {tokens : TokenStream} {label : String} {verbose : Bool}
    (h : Moves (ofTokens tokens label verbose) r) :
    (∀ stop r₁ r₂, recognize r = .error stop r₁ → Moves r₁ r₂ →
      let error : SyntaxError := ⟨⟨.poisoned, label, r₂.line⟩, none⟩
      recognize r₂ = .error (.refused (.fatal error)) r₂ ∧ error.found? = none) ∧
    (∀ r₁ r₂, tokens.behindEof = [] → recognize r = .ok () r₁ → Moves r₁ r₂ →
      ∃ r₃, recognize r₂ = .ok () r₃ ∧ Untouched r₂ r₃) ∧
    (∀ {α : Type} (body : Recog α), Operates False body →
      ∀ s, (leaves body s).poisoned = s.poisoned) ∧
    ∀ s : Recognizer, s.poisoned = true ↔
      ∃ error s', recognize s = .error (.refused (.fatal error)) s' ∧
        error.located.error = .poisoned := by
  obtain ⟨k, hk⟩ := (StandsAt.ofTokens tokens label verbose).steps h.steps
  refine ⟨fun stop r₁ r₂ hr hmoves => ?_, fun r₁ r₂ hbehind hr hmoves => ?_,
    fun body hbody s => ?_, fun s => poisoned_iff⟩
  · intro error
    have verdict : Moves r r₁ := leaves_of_error hr ▸ .single .verdict
    have moved : Moves (ofTokens tokens label verbose) r₂ := (h.trans verdict).trans hmoves
    refine ⟨?_, rfl⟩
    rw [recognize_of_poisoned (hmoves.poisoned (poisoned_of_refused hr)), moved.steps.file]
    rfl
  · exact (hmoves.settled (settled_of_accepted hk hbehind hr)).recognize
  · exact (hbody.steps s).poisoned

end Recognizer

/-! ## Sessions -/

theorem Action.answer_snd {α : Type} {value : α → Answer} {refused : Refusal → Answer}
    {body : Recog α} {r : Recognizer} : (answer value refused body r).2 = Recog.leaves body r := by
  unfold answer Recog.leaves
  cases body r with
  | ok a r' => rfl
  | error stop r' => cases stop <;> rfl

/-- An action is made of operations, or it is a verdict. -/
theorem Action.moves_perform (action : Action) (r : Recognizer) :
    Recognizer.Moves r (action.perform r).2 := by
  have operation {α : Type} {value : α → Answer} {refused : Refusal → Answer} {body : Recog α}
      (h : Recog.Blind body) : Recognizer.Moves r (answer value refused body r).2 := by
    rw [answer_snd]
    exact (h.steps r).moves
  cases action with
  | peek | refusalOf => exact .refl
  | matchKind kind => exact operation (.matchKind kind)
  | matchKeyword k => exact operation (.matchKeyword k)
  | expect kind what => exact operation (.expect kind what)
  | expectKeyword k what => exact operation (.expectKeyword k what)
  | within name body => exact operation (.within name (Recog.blind_run body))
  | attempt name body => exact operation (.attempt name (Recog.blind_run body))
  | recognize =>
    rw [perform, answer_snd]
    exact .single .verdict

theorem Session.moves_of_mem_run {actions : List Action} {answer : Answer} {r r' : Recognizer}
    (hmem : (answer, r') ∈ run r actions) : Recognizer.Moves r r' := by
  induction actions generalizing r with
  | nil => cases hmem
  | cons action actions ih =>
    have first := action.moves_perform r
    unfold run at hmem
    split at hmem
    · rename_i r₁ hp
      rw [hp] at first
      obtain ⟨-, rfl⟩ := Prod.mk.inj (List.mem_singleton.1 hmem)
      exact first
    · rename_i answer₁ r₁ _ hp
      rw [hp] at first
      rcases List.mem_cons.1 hmem with heq | hmem
      · obtain ⟨-, rfl⟩ := Prod.mk.inj heq
        exact first
      · exact first.trans (ih hmem)

namespace Recognizer

/-- A name behind a storage modifier is refused, and what is left of the declaration is matched one
by one; a declaration is accepted, and two ends of input are matched behind it, one of which no
stream holds. Then both are judged again. -/
theorem recognize_final_again :
    let refused : TokenStream :=
      [⟨.keyword .staticKw, 1⟩, ⟨.identifier "x", 2⟩, ⟨.punctuation .semicolon, 3⟩, .eof 3]
    let accepted : TokenStream :=
      [⟨.keyword .varKw, 1⟩, ⟨.identifier "x", 2⟩, ⟨.punctuation .semicolon, 3⟩, .eof 3]
    let named : Script := .expect .identifier "name" true (.attempt "again" (.refuse "name" false
      .done) .done)
    (∃ stop r₁ r₂, recognize (ofTokens refused "a.sir" false) = .error stop r₁ ∧
      (Session.run r₁ [.within "named" named, .recognize, .matchKind .semicolon]).getLast? =
        some (.matched true, r₂) ∧
      r₂.matchedText = "static x ; " ∧ r₂.line = 2 ∧
      recognize r₂ = .error (.refused (.fatal ⟨⟨.poisoned, "a.sir", 2⟩, none⟩)) r₂) ∧
    ∃ r₁ r₂ r₃, recognize (ofTokens accepted "a.sir" false) = .ok () r₁ ∧
      (Session.run r₁ [.matchKind .eof, .attempt "named" named, .recognize,
        .matchKind .eof]).getLast? = some (.matched true, r₂) ∧
      r₂.matchedText = "var x ;   " ∧ recognize r₂ = .ok () r₃ ∧ Untouched r₂ r₃ := by
  intro refused accepted named
  constructor
  · have run : (match recognize (ofTokens refused "a.sir" false) with
        | .error _ r₁ =>
          (Session.run r₁ [.within "named" named, .recognize, .matchKind .semicolon]).getLast?.map
            fun entry => (entry.1, entry.2.matchedText, entry.2.line)
        | .ok _ _ => none) = some (.matched true, "static x ; ", 2) := by
      decide +kernel
    split at run
    · rename_i stop r₁ hr
      obtain ⟨⟨answer, r₂⟩, hlast, hentry⟩ := Option.map_eq_some_iff.1 run
      obtain ⟨rfl, htext, hline⟩ : answer = .matched true ∧ r₂.matchedText = "static x ; " ∧
        r₂.line = 2 := by simpa using hentry
      have later := Session.moves_of_mem_run (List.mem_of_getLast? hlast)
      have final := ((recognize_final .refl).1 _ _ _ hr later).1
      rw [hline] at final
      exact ⟨stop, r₁, r₂, hr, hlast, htext, hline, final⟩
    · cases run
  · have run : (match recognize (ofTokens accepted "a.sir" false) with
        | .ok _ r₁ =>
          (Session.run r₁ [.matchKind .eof, .attempt "named" named, .recognize,
            .matchKind .eof]).getLast?.map fun entry => (entry.1, entry.2.matchedText)
        | .error _ _ => none) = some (.matched true, "var x ;   ") := by
      decide +kernel
    split at run
    · rename_i r₁ hr
      obtain ⟨⟨answer, r₂⟩, hlast, hentry⟩ := Option.map_eq_some_iff.1 run
      obtain ⟨rfl, htext⟩ : answer = .matched true ∧ r₂.matchedText = "var x ;   " := by
        simpa using hentry
      have later := Session.moves_of_mem_run (List.mem_of_getLast? hlast)
      obtain ⟨r₃, final, untouched⟩ := (recognize_final .refl).2.1 _ _ rfl hr later
      exact ⟨r₁, r₂, r₃, hr, hlast, htext, final, untouched⟩
    · cases run

end Recognizer
end FrontEnd
