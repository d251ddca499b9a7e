import FrontEnd.Recognizer.Grammar
import Mathlib.Logic.Relation
import Mathlib.Tactic.Choose

/-!
# FrontEnd.Proofs.Recognizer.Operations

What can be done to a recognizer.

* `Recognizer.Step` — the changes that the operations make, one at a time; `Recognizer.Steps` —
  any number of them, one after the other.
* `Recognizer.Steps.still` — steps that consume nothing leave the lookahead and the line.
* `Recog.Operates` — a computation touches the recognizer through the operations only. What it
  does next may depend on everything it has seen, also on refusals.
* `Recog.Operates.steps` — so it takes the recognizer on by steps, however it ends.
* `Recog.Operates.restores` — and the productions open at the end are those open at the beginning.
* `Recog.Operates.cut`, `Recog.Operates.repeatWhile`, … — what is put together from operations.
-/

namespace FrontEnd

/-- For a report of a match, whether a keyword was asked for. -/
def RecognizerEvent.byKeyword? : RecognizerEvent → Option Bool
  | matchedToken _ => some false
  | matchedKeyword _ => some true
  | rejectedToken .. | rejectedKeyword .. | declared .. | entering .. | leaving ..
  | recognizing _ | accepted _ | rejected .. => none

namespace Recognizer

/-- For every match reported, in order, whether a keyword was asked for. -/
def byKeyword (r : Recognizer) : List Bool :=
  r.reports.toList.filterMap fun report => report.event.byKeyword?

theorem byKeyword_note {r : Recognizer} {level : Level} {event : RecognizerEvent} :
    (r.note level event).byKeyword = r.byKeyword ++ event.byKeyword?.toList := by
  rw [byKeyword, note, Array.toList_push, List.filterMap_append]
  cases h : event.byKeyword? <;> simp [byKeyword, h]

theorem byKeyword_announce {r : Recognizer} {event : RecognizerEvent} :
    (r.announce event).byKeyword = r.byKeyword ++ event.byKeyword?.toList := byKeyword_note

/-- A change that an operation makes: a report that is of no match, a match of the lookahead, or
one of its keyword, or a production opened or closed. Where programs are judged the recognizer may
be poisoned, too. -/
inductive Step (judging : Prop) : Recognizer → Recognizer → Prop
  | note {r : Recognizer} {level : Level} {event : RecognizerEvent} :
    event.byKeyword? = none → Step judging r (r.note level event)
  | token {r : Recognizer} : Step judging r (r.announce (.matchedToken r.lookahead)).consume
  | keyword {r : Recognizer} {k : Keyword} : r.lookahead.isKeyword k = true →
    Step judging r (r.announce (.matchedKeyword k)).consume.track
  | nest {r : Recognizer} (names : List String) : Step judging r { r with nesting := names }
  | poison {r : Recognizer} : judging → Step judging r { r with poisoned := true }

abbrev Steps (judging : Prop) : Recognizer → Recognizer → Prop :=
  Relation.ReflTransGen (Step judging)

variable {judging : Prop} {r r' : Recognizer}

theorem Step.announce {event : RecognizerEvent} (h : event.byKeyword? = none) :
    Step judging r (r.announce event) := .note h

theorem steps_enter {name : String} : Steps judging r (r.enter name) :=
  .tail (.single (.note rfl)) (.nest _)

theorem steps_leave {name : String} : Steps judging r (r.leave name) :=
  .tail (.single (.nest _)) (.note rfl)

/-- Steps that consume nothing leave the lookahead, what is behind it and the line. -/
theorem Steps.still (h : Steps judging r r') :
    r.matched.size < r'.matched.size ∨
      r' = { r with
        nesting := r'.nesting
        poisoned := r'.poisoned
        reports := r'.reports } := by
  induction h with
  | refl => exact .inr rfl
  | @tail r₁ r₂ _ hstep ih =>
    have grown (h : r₂.matched.size = r₁.matched.size + 1) : r.matched.size < r₂.matched.size := by
      rcases ih with hlt | heq
      · omega
      · have : r₁.matched.size = r.matched.size := by rw [heq]
        omega
    cases hstep with
    | note => exact ih.imp id fun heq => by rw [heq]; rfl
    | token => exact .inl (grown (by simp [consume, announce, note]))
    | keyword => exact .inl (grown (by simp [consume, track, announce, note]))
    | nest => exact ih.imp id fun heq => by rw [heq]
    | poison => exact ih.imp id fun heq => by rw [heq]

theorem Steps.file (h : Steps judging r r') : r'.file = r.file := by
  induction h with
  | refl => rfl
  | tail _ hstep ih => cases hstep <;> exact ih

/-- Only a verdict poisons. -/
theorem Steps.poisoned (h : Steps False r r') : r'.poisoned = r.poisoned := by
  induction h with
  | refl => rfl
  | tail _ hstep ih =>
    cases hstep with
    | note | token | keyword | nest => exact ih
    | poison judging => exact judging.elim

end Recognizer

namespace Recog

open Recognizer Recognizer.Grammar

/-- The recognizer at the end of a computation, whichever end that is. -/
def leaves {α : Type} (body : Recog α) (r : Recognizer) : Recognizer :=
  match body r with
  | .ok _ r' => r'
  | .error _ r' => r'

/-- What a computation answers, its value or what stops it. -/
def result {α : Type} (body : Recog α) (r : Recognizer) : Except Stop α :=
  match body r with
  | .ok a _ => .ok a
  | .error stop _ => .error stop

/-- The computation with its refusal as a value. -/
def outcome {α : Type} (body : Recog α) : Recog (Except Refusal α) := fun r =>
  match body r with
  | .ok a r' => .ok (.ok a) r'
  | .error (.refused refusal) r' => .ok (.error refusal) r'
  | .error .misuse r' => .error .misuse r'

/-- Stops with a refusal, whatever the lookahead is. -/
def stop {α : Type} (refusal : Refusal) : Recog α := fun r => .error (.refused refusal) r

/-- Goes on from an outcome: a value stays, and a refusal is handled. -/
def takeUp {α : Type} (handler : Refusal → Recog α) : Except Refusal α → Recog α
  | .ok a => pure a
  | .error refusal => handler refusal

/-- Computations made of the operations alone, also of verdicts if it is `judging`. -/
inductive Operates (judging : Prop) : {α : Type} → Recog α → Prop
  | pure {α : Type} (a : α) : Operates judging (pure a)
  | stop {α : Type} (refusal : Refusal) : Operates judging (stop refusal : Recog α)
  | matchKind (kind : TokenKind) : Operates judging (matchKind kind)
  | matchKeyword (k : Keyword) : Operates judging (matchKeyword k)
  | note (level : Level) {event : RecognizerEvent} : event.byKeyword? = none →
    Operates judging (modify (Recognizer.note level event))
  | poison : judging → Operates judging (modify fun r => { r with poisoned := true })
  | bind {α β : Type} {body : Recog α} {f : α → Recog β} : Operates judging body →
    (∀ a, Operates judging (f a)) → Operates judging (body >>= f)
  | outcome {α : Type} {body : Recog α} : Operates judging body → Operates judging (outcome body)
  | within {α : Type} {body : Recog α} (name : String) : Operates judging body →
    Operates judging (within name body)
  | attempt {body : Recog Unit} (name : String) : Operates judging body →
    Operates judging (attempt name body)
  /-- It may look at the recognizer first. -/
  | depending {α : Type} (bodies : Recognizer → Recog α) : (∀ r, Operates judging (bodies r)) →
    Operates judging fun r => bodies r r

section Leaves

variable {α β : Type} {body : Recog α} {r r' : Recognizer}

theorem leaves_of_ok {a : α} (h : body r = .ok a r') : leaves body r = r' := by
  rw [leaves, h]

theorem leaves_of_error {stop : Stop} (h : body r = .error stop r') : leaves body r = r' := by
  rw [leaves, h]

theorem ok_of_result {a : α} (h : result body r = .ok a) : body r = .ok a (leaves body r) := by
  unfold result at h
  unfold leaves
  cases hb : body r with
  | ok b r' =>
    rw [hb] at h
    cases h
    rfl
  | error stop r' =>
    rw [hb] at h
    cases h

theorem bind_of_ok {f : α → Recog β} {a : α} (h : body r = .ok a r') :
    (body >>= f) r = f a r' := by
  simp only [Bind.bind, EStateM.bind, h]

theorem bind_of_error {f : α → Recog β} {stop : Stop} (h : body r = .error stop r') :
    (body >>= f) r = .error stop r' := by
  simp only [Bind.bind, EStateM.bind, h]

theorem modify_bind {change : Recognizer → Recognizer} {f : Unit → Recog β} :
    (modify change >>= f) r = f () (change r) := rfl

theorem outcome_of_ok {a : α} (h : body r = .ok a r') : outcome body r = .ok (.ok a) r' := by
  rw [outcome, h]

theorem outcome_of_refused {refusal : Refusal} (h : body r = .error (.refused refusal) r') :
    outcome body r = .ok (.error refusal) r' := by
  rw [outcome, h]

theorem outcome_of_misuse (h : body r = .error .misuse r') :
    outcome body r = .error .misuse r' := by
  rw [outcome, h]

theorem leaves_outcome : leaves (outcome body) r = leaves body r := by
  unfold leaves outcome
  cases body r with
  | ok a r' => rfl
  | error stop r' => cases stop <;> rfl

/-- What is left to do under a name is to leave it. -/
theorem steps_of_leaves_within {judging : Prop} {name : String} :
    Steps judging (leaves body (r.enter name)) (leaves (within name body) r) := by
  unfold leaves within
  cases hb : body (r.enter name) with
  | ok a r' => exact steps_leave
  | error stop r' => cases stop with
    | refused refusal => exact steps_leave
    | misuse => exact .refl

theorem steps_leaves_within {judging : Prop} {name : String}
    (h : Steps judging (r.enter name) (leaves body (r.enter name))) :
    Steps judging r (leaves (within name body) r) :=
  (steps_enter.trans h).trans steps_of_leaves_within

theorem leaves_cut : leaves (cut body) r = leaves body r := by
  unfold leaves cut
  cases body r with
  | ok a r' => rfl
  | error stop r' => cases stop <;> rfl

theorem leaves_attempt {name : String} {body : Recog Unit} :
    leaves (attempt name body) r = leaves (within name body) r := by
  unfold leaves attempt
  cases within name body r with
  | ok a r' => rfl
  | error stop r' => cases stop with
    | refused refusal => cases refusal with
      | recoverable e => by_cases h : r'.matched.size = r.matched.size <;> simp [h]
      | fatal e => rfl
    | misuse => rfl

end Leaves

namespace Operates

variable {judging : Prop} {α : Type} {body : Recog α}

theorem steps (h : Operates judging body) (r : Recognizer) :
    Steps judging r (leaves body r) := by
  induction h generalizing r with
  | pure => exact .refl
  | stop => exact .refl
  | matchKind kind =>
    unfold leaves Recognizer.matchKind
    by_cases hk : r.lookahead.kind = kind
    · rw [if_pos hk]
      exact .single .token
    · rw [if_neg hk]
      exact .single (.announce rfl)
  | matchKeyword k =>
    unfold leaves Recognizer.matchKeyword
    by_cases hk : r.lookahead.isKeyword k = true
    · rw [if_pos hk]
      exact .single (.keyword hk)
    · rw [if_neg hk]
      exact .single (.announce rfl)
  | note level h => exact .single (.note h)
  | poison h => exact .single (.poison h)
  | @bind _ _ body f _ _ ih ihf =>
    have first := ih r
    cases hb : body r with
    | ok a r' =>
      rw [leaves_of_ok hb] at first
      rw [leaves, bind_of_ok hb]
      exact first.trans (ihf a r')
    | error stop r' =>
      rw [leaves_of_error hb] at first
      rw [leaves, bind_of_error hb]
      exact first
  | outcome _ ih =>
    rw [leaves_outcome]
    exact ih r
  | within name _ ih => exact steps_leaves_within (ih _)
  | attempt name _ ih =>
    rw [leaves_attempt]
    exact steps_leaves_within (ih _)
  | depending _ _ ih => exact ih r r

end Operates

/-- What follows a round of a loop: more rounds, where the step asks for them and fewer tokens are
left than before. -/
def goesOn (more : Recog Unit) (before : Nat) (again : Bool) : Recog Unit := fun r =>
  if again ∧ r.pending < before then more r else .ok () r

theorem repeatWhile_eq {step : Recog Bool} {r : Recognizer} :
    repeatWhile step r = (step >>= goesOn (repeatWhile step) r.pending) r := by
  rw [repeatWhile]
  cases hs : step r with
  | ok again r' =>
    rw [bind_of_ok hs]
    unfold goesOn
    cases again with
    | true => simp only [true_and]
    | false => rfl
  | error stop r' => rw [bind_of_error hs]

/-- At an answer, also at a refusal, the productions open are those of the beginning. -/
def Restores {α : Type} (body : Recog α) (r : Recognizer) : Prop :=
  match body r with
  | .ok _ r' => r'.nesting = r.nesting
  | .error (.refused _) r' => r'.nesting = r.nesting
  | .error .misuse _ => True

section Restores

variable {α β : Type} {body : Recog α} {r r' : Recognizer}

theorem Restores.of_ok {a : α} (h : Restores body r) (hb : body r = .ok a r') :
    r'.nesting = r.nesting := by
  unfold Restores at h
  rwa [hb] at h

theorem Restores.of_refused {refusal : Refusal} (h : Restores body r)
    (hb : body r = .error (.refused refusal) r') : r'.nesting = r.nesting := by
  unfold Restores at h
  rwa [hb] at h

theorem restores_within {name : String} (h : Restores body (r.enter name)) :
    Restores (within name body) r := by
  -- what was opened first is closed last
  have closed {r' : Recognizer} (h : r'.nesting = (r.enter name).nesting) :
      (r'.leave name).nesting = r.nesting := congrArg List.tail h
  unfold Restores within at *
  cases hb : body (r.enter name) with
  | ok a r' =>
    rw [hb] at h
    exact closed h
  | error stop r' =>
    rw [hb] at h
    cases stop with
    | refused refusal => exact closed h
    | misuse => trivial

theorem Restores.bind {f : α → Recog β} (h : Restores body r) (hf : ∀ a r', Restores (f a) r') :
    Restores (body >>= f) r := by
  unfold Restores
  cases hb : body r with
  | ok a r' =>
    rw [bind_of_ok hb, ← h.of_ok hb]
    exact hf a r'
  | error stop r' =>
    rw [bind_of_error hb]
    cases stop with
    | refused refusal => exact h.of_refused hb
    | misuse => trivial

theorem Restores.outcome (h : Restores body r) : Restores (outcome body) r := by
  unfold Restores at h
  unfold Restores Recog.outcome
  cases hb : body r with
  | ok a r' =>
    rw [hb] at h
    exact h
  | error stop r' =>
    rw [hb] at h
    cases stop <;> exact h

theorem Restores.attempt {name : String} {body : Recog Unit} (h : Restores (within name body) r) :
    Restores (attempt name body) r := by
  unfold Restores at h
  unfold Restores Recognizer.attempt
  cases hb : within name body r with
  | ok a r' =>
    rw [hb] at h
    exact h
  | error stop r' =>
    rw [hb] at h
    cases stop with
    | refused refusal => cases refusal with
      | recoverable e =>
        by_cases hm : r'.matched.size = r.matched.size
        · simpa only [if_pos hm] using h
        · simp only [if_neg hm]
      | fatal e => exact h
    | misuse => trivial

end Restores

namespace Operates

variable {judging : Prop} {α : Type} {body : Recog α}

theorem restores (h : Operates judging body) (r : Recognizer) : Restores body r := by
  induction h generalizing r with
  | pure => exact rfl
  | stop => exact rfl
  | matchKind kind =>
    unfold Restores Recognizer.matchKind
    by_cases hk : r.lookahead.kind = kind
    · rw [if_pos hk]
      rfl
    · rw [if_neg hk]
      rfl
  | matchKeyword k =>
    unfold Restores Recognizer.matchKeyword
    by_cases hk : r.lookahead.isKeyword k = true
    · rw [if_pos hk]
      rfl
    · rw [if_neg hk]
      rfl
  | note => exact rfl
  | poison => exact rfl
  | bind _ _ ih ihf => exact (ih r).bind ihf
  | outcome _ ih => exact (ih r).outcome
  | within name _ ih => exact restores_within (ih _)
  | attempt name _ ih => exact (restores_within (ih _)).attempt
  | depending _ _ ih => exact ih r r

theorem refuse (what : String) : Operates judging (refuse what : Recog α) :=
  .depending (fun r => Recog.stop (r.refusal what)) fun _ => .stop _

theorem expect (kind : TokenKind) (what : String) : Operates judging (expect kind what) :=
  .bind (.matchKind kind) fun found => by cases found <;> first | exact .pure () | exact refuse what

theorem expectKeyword (k : Keyword) (what : String) : Operates judging (expectKeyword k what) :=
  .bind (.matchKeyword k) fun found => by cases found <;> first | exact .pure () | exact refuse what

theorem takeUp {handler : Refusal → Recog α} (h : ∀ refusal, Operates judging (handler refusal))
    (answer : Except Refusal α) : Operates judging (takeUp handler answer) := by
  cases answer with
  | ok a => exact .pure a
  | error refusal => exact h refusal

theorem cut (h : Operates judging body) : Operates judging (cut body) := by
  have : Recognizer.cut body =
      Recog.outcome body >>= Recog.takeUp fun refusal => Recog.stop refusal.cut := by
    funext r
    simp only [Recognizer.cut, Recog.outcome, Bind.bind, EStateM.bind]
    cases body r with
    | ok a r' => rfl
    | error stop r' => cases stop <;> rfl
  rw [this]
  exact .bind (.outcome h) (.takeUp fun refusal => .stop refusal.cut)

theorem goesOn {more : Recog Unit} (h : Operates judging more) (before : Nat) (again : Bool) :
    Operates judging (goesOn more before again) := by
  have : Recog.goesOn more before again = fun r =>
      (if again ∧ r.pending < before then more else Pure.pure () : Recog Unit) r := by
    funext r
    unfold Recog.goesOn
    split <;> rfl
  rw [this]
  refine .depending _ fun r => ?_
  split
  · exact h
  · exact .pure ()

theorem report (storage : Storage) (what : Declared) : Operates judging (report storage what) :=
  .depending (fun r => modify (Recognizer.note (if r.verbose then .info else .trace)
    (.declared r.file r.line storage what))) fun _ => .note _ rfl

/-- On recognizers with fewer than a given number of tokens left the loop is a computation that
does not call itself. -/
theorem exists_eq_repeatWhile {step : Recog Bool} (h : Operates judging step) (n : Nat) :
    ∃ loop, Operates judging loop ∧
      ∀ r, r.pending < n → Recognizer.repeatWhile step r = loop r := by
  induction n with
  | zero => exact ⟨_, .pure (), fun _ h => absurd h (Nat.not_lt_zero _)⟩
  | succ n ih =>
    obtain ⟨loop, hloop, heq⟩ := ih
    refine ⟨fun r => (step >>= Recog.goesOn loop r.pending) r,
      .depending _ fun r => .bind h (hloop.goesOn r.pending), fun r hr => ?_⟩
    rw [repeatWhile_eq]
    dsimp only
    cases hs : step r with
    | ok again r' =>
      rw [bind_of_ok hs, bind_of_ok hs]
      unfold Recog.goesOn
      by_cases h : again ∧ r'.pending < r.pending
      · rw [if_pos h, if_pos h, heq r' (by omega)]
      · rw [if_neg h, if_neg h]
    | error stop r' => rw [bind_of_error hs, bind_of_error hs]

theorem repeatWhile {step : Recog Bool} (h : Operates judging step) :
    Operates judging (repeatWhile step) := by
  have (n : Nat) := h.exists_eq_repeatWhile n
  choose loop hloop heq using this
  have : Recognizer.repeatWhile step = fun r => loop (r.pending + 1) r :=
    funext fun r => heq _ r (Nat.lt_succ_self _)
  rw [this]
  exact .depending _ fun r => hloop (r.pending + 1)

end Operates

/-- What follows a refusal that may be recovered from by another computation. -/
def instead {α : Type} (other : Recog α) : Refusal → Recog α
  | .recoverable _ => other
  | .fatal error => stop (.fatal error)

/-- Where the one computation refuses recoverably, the other one takes its place. -/
def otherwise {α : Type} (body other : Recog α) : Recog α := fun r =>
  match body r with
  | .error (.refused (.recoverable _)) r' => other r'
  | result => result

theorem Operates.otherwise {judging : Prop} {α : Type} {body other : Recog α}
    (h : Operates judging body) (ho : Operates judging other) :
    Operates judging (otherwise body other) := by
  have : Recog.otherwise body other = Recog.outcome body >>= Recog.takeUp (instead other) := by
    funext r
    simp only [Recog.otherwise, Recog.outcome, Bind.bind, EStateM.bind]
    cases body r with
    | ok a r' => rfl
    | error stop r' => cases stop with
      | refused refusal => cases refusal <;> rfl
      | misuse => rfl
  rw [this]
  refine .bind (.outcome h) (.takeUp fun refusal => ?_)
  cases refusal with
  | recoverable e => exact ho
  | fatal e => exact .stop (.fatal e)

theorem operates_endOfInput {judging : Prop} : Operates judging endOfInput := by
  have : endOfInput = fun r => (if r.lookahead.kind = .eof then pure ()
      else stop (.fatal (r.syntaxError (.expectedEnd r.lookahead))) : Recog Unit) r := by
    funext r
    unfold endOfInput
    split <;> rfl
  rw [this]
  refine .depending _ fun r => ?_
  split
  · exact .pure ()
  · exact .stop _

end Recog
end FrontEnd
