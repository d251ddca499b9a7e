import FrontEnd.Proofs.Recognizer.Finality

/-!
# FrontEnd.Proofs.Recognizer.Verbosity

A verbose recognizer does what any other does, and only tells it openly.

* `Recog.Unaware` — computations that see everything of a recognizer but its log and how openly it
  reports. Productions are such, and verdicts (`Recog.Unaware.recognize`).
* `Report.Opens` — the same report, of a recognizer that is not verbose and of one that is.
* `Recognizer.Twins` — two recognizers that differ in their log alone, report by report. The
  operations keep them so (`Recognizer.Twins.simulation`).
* `Recog.Unaware.agrees` — a computation that is unaware of the log has the same end on twins.
* `Recognizer.Steps.tells` — for every token consumed, one match is reported.
* `Recognizer.verbose_only_announces` — so verbosity shows in the levels of the log and nowhere
  else.
-/

namespace FrontEnd

/-- Matches, rejections and finished declarations are for a verbose recognizer to tell. -/
def RecognizerEvent.isAnnounced : RecognizerEvent → Bool
  | matchedToken _ | rejectedToken .. | matchedKeyword _ | rejectedKeyword .. | declared .. => true
  | entering .. | leaving .. | recognizing _ | accepted _ | rejected .. => false

/-- The same report, once of a recognizer that is not verbose and once of one that is. -/
structure Report.Opens (quiet verbose : Report) : Prop where
  event : verbose.event = quiet.event
  announced : quiet.event.isAnnounced = true → quiet.level = .trace ∧ verbose.level = .info
  other : quiet.event.isAnnounced = false → verbose.level = quiet.level ∧ quiet.level ≠ .info

namespace Recognizer

/-- The recognizer but for its log. -/
def silent (r : Recognizer) : Recognizer := { r with verbose := false, reports := #[] }

structure Twins (r s : Recognizer) : Prop where
  silent : s.silent = r.silent
  quiet : r.verbose = false
  verbose : s.verbose = true
  reports : List.Forall₂ Report.Opens r.reports.toList s.reports.toList

namespace Twins

variable {r s : Recognizer} {event event' : RecognizerEvent}

theorem ofTokens (tokens : TokenStream) (label : String) :
    Twins (ofTokens tokens label false) (ofTokens tokens label true) :=
  ⟨rfl, rfl, rfl, .nil⟩

theorem lookahead (h : Twins r s) : s.lookahead = r.lookahead := congrArg (·.lookahead) h.silent

theorem file (h : Twins r s) : s.file = r.file := congrArg (·.file) h.silent

theorem line (h : Twins r s) : s.line = r.line := congrArg (·.line) h.silent

/-- What leaves the log alone does the same to both. -/
theorem change {f : Recognizer → Recognizer} (h : Twins r s)
    (hsilent : ∀ r, (f r).silent = f r.silent) (hverbose : ∀ r, (f r).verbose = r.verbose)
    (hreports : ∀ r, (f r).reports = r.reports) : Twins (f r) (f s) where
  silent := by rw [hsilent, hsilent, h.silent]
  quiet := (hverbose r).trans h.quiet
  verbose := (hverbose s).trans h.verbose
  reports := by
    rw [hreports, hreports]
    exact h.reports

/-- Each of the two adds its own report. -/
theorem report {level level' : Level} (h : Twins r s)
    (opens : Report.Opens ⟨level, event⟩ ⟨level', event'⟩) :
    Twins (r.note level event) (s.note level' event') where
  silent := h.silent
  quiet := h.quiet
  verbose := h.verbose
  reports := by
    rw [note, note, Array.toList_push, Array.toList_push]
    exact List.rel_append h.reports (.cons opens .nil)

theorem note {level : Level} (h : Twins r s) (he : event' = event)
    (hannounced : event.isAnnounced = false) (hlevel : level ≠ .info) :
    Twins (r.note level event) (s.note level event') :=
  h.report ⟨he, fun ha => absurd (hannounced.symm.trans ha) Bool.false_ne_true,
    fun _ => ⟨rfl, hlevel⟩⟩

theorem announce (h : Twins r s) (he : event' = event) (hannounced : event.isAnnounced = true) :
    Twins (r.announce event) (s.announce event') := by
  unfold Recognizer.announce
  rw [h.quiet, h.verbose]
  exact h.report ⟨he, fun _ => ⟨rfl, rfl⟩,
    fun ha => absurd (ha.symm.trans hannounced) Bool.false_ne_true⟩

theorem consume (h : Twins r s) : Twins r.consume s.consume :=
  h.change (fun _ => rfl) (fun _ => rfl) fun _ => rfl

theorem track (h : Twins r s) : Twins r.track s.track :=
  h.change (fun _ => rfl) (fun _ => rfl) fun _ => rfl

theorem nest (f : List String → List String) (h : Twins r s) :
    Twins { r with nesting := f r.nesting } { s with nesting := f s.nesting } :=
  h.change (f := fun r => { r with nesting := f r.nesting }) (fun _ => rfl) (fun _ => rfl)
    fun _ => rfl

theorem poison (h : Twins r s) : Twins { r with poisoned := true } { s with poisoned := true } :=
  h.change (f := fun r => { r with poisoned := true }) (fun _ => rfl) (fun _ => rfl)
    fun _ => rfl

theorem complain (h : Twins r s) (complaint : Complaint) (path : List String) :
    s.complain complaint path = r.complain complaint path :=
  congrArg (·.complain complaint path) h.silent

theorem refusal (h : Twins r s) (what : String) : s.refusal what = r.refusal what :=
  congrArg (·.refusal what) h.silent

theorem size (h : Twins r s) : s.matched.size = r.matched.size :=
  congrArg (·.matched.size) h.silent

theorem pending (h : Twins r s) : s.pending = r.pending := congrArg (·.pending) h.silent

theorem enter (name : String) (h : Twins r s) : Twins (r.enter name) (s.enter name) := by
  have noted : Twins (r.note .trace (.entering name r.lookahead))
      (s.note .trace (.entering name s.lookahead)) :=
    h.note (congrArg (RecognizerEvent.entering name) h.lookahead) rfl (by decide)
  exact noted.nest (name :: ·)

theorem leave (name : String) (h : Twins r s) : Twins (r.leave name) (s.leave name) :=
  (h.nest List.tail).note (congrArg (RecognizerEvent.leaving name) h.lookahead) rfl (by decide)

theorem simulation : Recog.Simulation Twins (fun _ => False) where
  nesting h := congrArg (·.nesting) h.silent
  terminal h _ := congrArg Token.terminal h.lookahead
  takeToken h _ := (h.announce (congrArg _ h.lookahead) rfl).consume
  takeKeyword _ h _ := (h.announce rfl rfl).consume.track
  rejectToken kind h := h.announce (congrArg (RecognizerEvent.rejectedToken · kind) h.lookahead) rfl
  rejectKeyword k h := h.announce (congrArg (RecognizerEvent.rejectedKeyword · k) h.lookahead) rfl
  report storage what h := h.announce (by rw [h.file, h.line]) rfl
  enter := enter
  leave := leave
  size h h' := by rw [h.size, h'.size]
  pending h h' _ _ := by rw [h.pending, h'.pending]
  spent h _ := h

end Twins
end Recognizer

namespace Recog

open Recognizer Recognizer.Grammar

/-- The same end, with the same value or for the same reason, on twins. -/
inductive Agree {α : Type} :
    EStateM.Result Stop Recognizer α → EStateM.Result Stop Recognizer α → Prop
  | ok {r s : Recognizer} (a : α) : Twins r s → Agree (.ok a r) (.ok a s)
  | error {r s : Recognizer} (stop : Stop) : Twins r s → Agree (.error stop r) (.error stop s)

/-- On twins a complaint is the same. -/
theorem Alike.agree {α : Type} {x y : EStateM.Result Stop Recognizer α} (h : Alike Twins x y) :
    Agree x y := by
  cases h with
  | ok a h => exact .ok a h
  | recoverable complaint path h =>
    rw [h.complain]
    exact .error _ h
  | fatal complaint path h =>
    rw [h.complain]
    exact .error _ h
  | misuse h => exact .error _ h

/-- Computations that may look at everything but the log, and do what the operations do. They may
report, too, but what a verbose recognizer would tell openly the operations report themselves. -/
inductive Unaware : {α : Type} → Recog α → Prop
  | blind {α : Type} {body : Recog α} : Blind body → Unaware body
  | stop {α : Type} (refusal : Refusal) : Unaware (stop refusal : Recog α)
  | note {level : Level} {event : RecognizerEvent} : event.isAnnounced = false → level ≠ .info →
    Unaware (modify (Recognizer.note level event))
  | poison : Unaware (modify fun r => { r with poisoned := true })
  | bind {α β : Type} {body : Recog α} {f : α → Recog β} : Unaware body → (∀ a, Unaware (f a)) →
    Unaware (body >>= f)
  | outcome {α : Type} {body : Recog α} : Unaware body → Unaware (outcome body)
  | within {α : Type} {body : Recog α} (name : String) : Unaware body → Unaware (within name body)
  | attempt {body : Recog Unit} (name : String) : Unaware body → Unaware (attempt name body)
  | repeatWhile {step : Recog Bool} : Unaware step → Unaware (repeatWhile step)
  | depending {α : Type} (bodies : Recognizer → Recog α) : (∀ r, Unaware (bodies r)) →
    Unaware fun r => bodies r.silent r

section Agree

variable {α β : Type} {body : Recog α} {r s : Recognizer}

theorem Agree.leaves (h : Agree (body r) (body s)) : Twins (leaves body r) (leaves body s) := by
  unfold Recog.leaves
  generalize body r = x at h ⊢
  generalize body s = y at h ⊢
  cases h with
  | ok a h => exact h
  | error stop h => exact h

theorem Agree.bind {f : α → Recog β} (h : Agree (body r) (body s))
    (hf : ∀ a {r s}, Twins r s → Agree (f a r) (f a s)) :
    Agree ((body >>= f) r) ((body >>= f) s) := by
  generalize hr : body r = x at h
  generalize hs : body s = y at h
  cases h with
  | ok a h =>
    rw [bind_of_ok hr, bind_of_ok hs]
    exact hf a h
  | error stop h =>
    rw [bind_of_error hr, bind_of_error hs]
    exact .error stop h

theorem Agree.outcome (h : Agree (body r) (body s)) :
    Agree (outcome body r) (outcome body s) := by
  unfold Recog.outcome
  generalize body r = x at h ⊢
  generalize body s = y at h ⊢
  cases h with
  | ok a h => exact .ok _ h
  | error stop h => cases stop with
    | refused refusal => exact .ok _ h
    | misuse => exact .error _ h

theorem Agree.within {name : String} (h : Agree (body (r.enter name)) (body (s.enter name))) :
    Agree (within name body r) (within name body s) := by
  unfold Recognizer.within
  generalize body (r.enter name) = x at h ⊢
  generalize body (s.enter name) = y at h ⊢
  cases h with
  | ok a h => exact .ok a (h.leave name)
  | error stop h => cases stop with
    | refused refusal => exact .error _ (h.leave name)
    | misuse => exact .error _ h

theorem Agree.attempt {name : String} {body : Recog Unit} (ht : Twins r s)
    (h : Agree (Recognizer.within name body r) (Recognizer.within name body s)) :
    Agree (attempt name body r) (attempt name body s) := by
  unfold Recognizer.attempt
  generalize Recognizer.within name body r = x at h ⊢
  generalize Recognizer.within name body s = y at h ⊢
  cases h with
  | ok a h => exact .ok true h
  | error stop h => cases stop with
    | misuse => exact .error _ h
    | refused refusal => cases refusal with
      | fatal e => exact .error _ h
      | recoverable e =>
        dsimp only
        rw [h.size, ht.size]
        split
        · exact .ok false h
        · exact .error _ h

theorem Agree.repeatWhile {step : Recog Bool}
    (hstep : ∀ {r s}, Twins r s → Agree (step r) (step s)) (h : Twins r s) :
    Agree (repeatWhile step r) (repeatWhile step s) := by
  induction hn : r.pending using Nat.strongRecOn generalizing r s with
  | ind n rounds =>
    subst hn
    rw [repeatWhile_eq, repeatWhile_eq, h.pending]
    refine (hstep h).bind fun again {r' s'} h' => ?_
    unfold goesOn
    rw [h'.pending]
    split
    · rename_i hmore
      exact rounds _ hmore.2 h' rfl
    · exact .ok () h'

end Agree

namespace Unaware

variable {α : Type} {body : Recog α} {r s : Recognizer}

/-- The induction is on what the computation is made of. -/
theorem agrees (hbody : Unaware body) (h : Twins r s) : Agree (body r) (body s) := by
  induction hbody generalizing r s with
  | blind hbody => exact (hbody.alike Twins.simulation h id).agree
  | stop refusal => exact .error _ h
  | note hannounced hlevel => exact .ok () (h.note rfl hannounced hlevel)
  | poison => exact .ok () h.poison
  | bind _ _ ih ihf => exact (ih h).bind fun a => ihf a
  | outcome _ ih => exact (ih h).outcome
  | within name _ ih => exact (ih (h.enter name)).within
  | attempt name _ ih => exact (ih (h.enter name)).within.attempt h
  | repeatWhile _ ih => exact .repeatWhile ih h
  | depending bodies _ ih =>
    show Agree (bodies r.silent r) (bodies s.silent s)
    rw [h.silent]
    exact ih _ h

theorem operates (h : Unaware body) : Operates True body := by
  induction h with
  | blind h => exact h.operates
  | stop refusal => exact .stop refusal
  | @note level event hannounced =>
    refine .note level ?_
    cases event <;> first | rfl | cases hannounced
  | poison => exact .poison trivial
  | bind _ _ ih ihf => exact .bind ih ihf
  | outcome _ ih => exact .outcome ih
  | within name _ ih => exact .within name ih
  | attempt name _ ih => exact .attempt name ih
  | repeatWhile _ ih => exact ih.repeatWhile
  | depending bodies _ ih => exact .depending (fun r => bodies r.silent) fun r => ih r.silent

theorem judged (verdict : Except Refusal Unit) : Unaware (judged verdict) := by
  cases verdict with
  | ok =>
    exact .depending (fun r => modify (Recognizer.note .debug (.accepted r.file)))
      fun _ => .note rfl (by decide)
  | error refusal =>
    exact .depending (fun r => do
        modify (Recognizer.note .debug (.rejected r.file refusal))
        modify fun r => { r with poisoned := true }
        Recog.stop refusal)
      fun _ => .bind (.note rfl (by decide)) fun _ => .bind .poison fun _ => .stop _

theorem recognize : Unaware recognize := by
  rw [show Recognizer.recognize = fun r => judges r.silent r from
    funext fun _ => recognize_eq_judges]
  refine .depending _ fun r => ?_
  unfold judges
  split
  · exact .stop _
  · exact .bind (.note rfl (by decide)) fun _ =>
      .bind (.outcome (.blind (.within _ blind_program))) judged

end Unaware

theorem Agree.result {α : Type} {body : Recog α} {r s : Recognizer}
    (h : Agree (body r) (body s)) : result body s = result body r := by
  unfold Recog.result
  generalize body r = x at h ⊢
  generalize body s = y at h ⊢
  cases h <;> rfl

end Recog

/-- The report says that the token was matched, for its kind or as the keyword that it is. -/
def Report.Tells (token : Token) (report : Report) : Prop :=
  report.event = .matchedToken token ∨
    ∃ k, token.isKeyword k = true ∧ report.event = .matchedKeyword k

theorem RecognizerEvent.isAnnounced_of_byKeyword? {event : RecognizerEvent}
    (h : event.byKeyword?.isSome = true) : event.isAnnounced = true := by
  cases event <;> first | rfl | cases h

/-- Only a verbose recognizer tells anything openly, and it tells all matches so. -/
theorem Report.levels_of_opens {quiet verbose : List Report}
    (h : List.Forall₂ Report.Opens quiet verbose) :
    (∀ report ∈ quiet, report.level ≠ .info) ∧
      ∀ report ∈ verbose, report.event.byKeyword?.isSome = true → report.level = .info := by
  induction h with
  | nil => exact ⟨List.forall_mem_nil _, List.forall_mem_nil _⟩
  | @cons q v _ _ opens _ ih =>
    refine ⟨List.forall_mem_cons.2 ⟨?_, ih.1⟩, List.forall_mem_cons.2 ⟨fun hmatch => ?_, ih.2⟩⟩
    · cases ha : q.event.isAnnounced with
      | true =>
        rw [(opens.announced ha).1]
        decide
      | false => exact (opens.other ha).2
    · rw [opens.event] at hmatch
      exact (opens.announced (RecognizerEvent.isAnnounced_of_byKeyword? hmatch)).2

namespace Recognizer

open Recog

/-- The reports of matches, in order. -/
def matchReports (r : Recognizer) : List Report :=
  r.reports.toList.filter (·.event.byKeyword?.isSome)

section Matches

variable {r r' : Recognizer} {event : RecognizerEvent}

theorem matchReports_note {level : Level} : (r.note level event).matchReports =
    r.matchReports ++ if event.byKeyword?.isSome then [⟨level, event⟩] else [] := by
  rw [matchReports, note, Array.toList_push, List.filter_append, List.filter_cons]
  rfl

/-- Every token consumed has its own report, in the same order. -/
theorem Steps.tells {judging : Prop} (h : Steps judging r r')
    (hr : List.Forall₂ Report.Tells r.matched.toList r.matchReports) :
    List.Forall₂ Report.Tells r'.matched.toList r'.matchReports := by
  -- the report and the token are added together
  have consumed {r : Recognizer} {event : RecognizerEvent}
      (hr : List.Forall₂ Report.Tells r.matched.toList r.matchReports)
      (hmatch : event.byKeyword?.isSome = true)
      (tells : ∀ level, Report.Tells r.lookahead ⟨level, event⟩) :
      List.Forall₂ Report.Tells (r.matched.push r.lookahead).toList
        (r.announce event).matchReports := by
    rw [announce, matchReports_note, if_pos hmatch, Array.toList_push]
    exact List.rel_append hr (.cons (tells _) .nil)
  induction h with
  | refl => exact hr
  | tail _ hstep ih =>
    cases hstep with
    | note hnone =>
      rw [matchReports_note, hnone, if_neg (by simp), List.append_nil]
      exact ih
    | token => exact consumed ih rfl fun _ => .inl rfl
    | keyword hk => exact consumed ih rfl fun _ => .inr ⟨_, hk, rfl⟩
    | nest => exact ih
    | poison => exact ih

end Matches

/-- What the same operations make of two recognizers, one after the other. -/
inductive Together (r s : Recognizer) : Recognizer → Recognizer → Prop
  | start : Together r s r s
  | operation {α : Type} {body : Recog α} {r' s' : Recognizer} : Together r s r' s' →
    Unaware body → Together r s (leaves body r') (leaves body s')

namespace Together

variable {r s r' s' : Recognizer}

theorem twins (h : Together r s r' s') (ht : Twins r s) : Twins r' s' := by
  induction h with
  | start => exact ht
  | operation _ hbody ih => exact (hbody.agrees ih).leaves

theorem steps (h : Together r s r' s') : Steps True s s' := by
  induction h with
  | start => exact .refl
  | operation _ hbody ih => exact ih.trans (hbody.operates.steps _)

/-- An action has the same answer. -/
theorem perform (h : Together r s r' s') (ht : Twins r' s') (action : Action) :
    (action.perform s').1 = (action.perform r').1 ∧
      Together r s (action.perform r').2 (action.perform s').2 := by
  have operation {α : Type} {value : α → Answer} {refused : Refusal → Answer} {body : Recog α}
      (hbody : Unaware body) :
      (Action.answer value refused body s').1 = (Action.answer value refused body r').1 ∧
        Together r s (Action.answer value refused body r').2
          (Action.answer value refused body s').2 := by
    rw [Action.answer_snd, Action.answer_snd]
    refine ⟨?_, h.operation hbody⟩
    have agree := hbody.agrees ht
    unfold Action.answer
    generalize body r' = x at agree ⊢
    generalize body s' = y at agree ⊢
    cases agree with
    | ok a _ => rfl
    | error stop _ => cases stop <;> rfl
  cases action with
  | peek => exact ⟨congrArg Answer.token ht.lookahead, h⟩
  | refusalOf what => exact ⟨congrArg Answer.refused (ht.refusal what), h⟩
  | matchKind kind => exact operation (.blind (.matchKind kind))
  | matchKeyword k => exact operation (.blind (.matchKeyword k))
  | expect kind what => exact operation (.blind (.expect kind what))
  | expectKeyword k what => exact operation (.blind (.expectKeyword k what))
  | within name body => exact operation (.within name (.blind (blind_run body)))
  | attempt name body => exact operation (.attempt name (.blind (blind_run body)))
  | recognize => exact operation .recognize

/-- All answers of a session are the same. -/
theorem session (h : Together r s r' s') (ht : Twins r s) (actions : List Action) :
    List.Forall₂ (fun a b => b.1 = a.1 ∧ Together r s a.2 b.2) (Session.run r' actions)
      (Session.run s' actions) := by
  induction actions generalizing r' s' with
  | nil => exact .nil
  | cons action actions ih =>
    obtain ⟨hanswer, hnext⟩ := h.perform (h.twins ht) action
    unfold Session.run
    generalize action.perform r' = x at hanswer hnext ⊢
    generalize action.perform s' = y at hanswer hnext ⊢
    obtain ⟨answer, r₁⟩ := x
    obtain ⟨answer', s₁⟩ := y
    obtain rfl : answer' = answer := hanswer
    cases answer' with
    | misuse => exact .cons ⟨rfl, hnext⟩ .nil
    | token | matched | done | tried | refused | failed => exact .cons ⟨rfl, hnext⟩ (ih hnext)

end Together

/-- Verbosity is for observers. Whatever the same operations make of a recognizer that is verbose
and of one that is not, both answer every further operation in the same way, a session of them
answer by answer, and have the same lookahead, line and matched text. Their logs have the same
messages in the same order: matches, rejections and declarations are open in the one and traces in
the other, where nothing is open, and all other messages are at the same level. The openly reported
matches are those of the tokens consumed, in order, one for each. -/
theorem verbose_only_announces {tokens : TokenStream} {label : String} {r s : Recognizer}
    (h : Together (ofTokens tokens label false) (ofTokens tokens label true) r s) :
    (∀ {α : Type} (body : Recog α), Unaware body → result body s = result body r) ∧
      (∀ actions, List.Forall₂ (fun a b => b.1 = a.1 ∧
        Together (ofTokens tokens label false) (ofTokens tokens label true) a.2 b.2)
          (Session.run r actions) (Session.run s actions)) ∧
      (s.lookahead = r.lookahead ∧ s.line = r.line ∧ s.matchedText = r.matchedText) ∧
      List.Forall₂ Report.Opens r.reports.toList s.reports.toList ∧
      (∀ report ∈ r.reports.toList, report.level ≠ .info) ∧
      List.Forall₂ (fun token report => report.level = .info ∧ report.Tells token)
        s.matched.toList s.matchReports := by
  have start := Twins.ofTokens tokens label
  have twins := h.twins start
  have levels := Report.levels_of_opens twins.reports
  have tells : List.Forall₂ Report.Tells s.matched.toList s.matchReports := h.steps.tells .nil
  refine ⟨fun body hbody => (hbody.agrees twins).result, h.session start,
    ⟨twins.lookahead, twins.line, congrArg (·.matchedText) twins.silent⟩, twins.reports, levels.1,
    ?_⟩
  rw [List.forall₂_iff_zip] at tells ⊢
  refine ⟨tells.1, fun hmem => ⟨?_, tells.2 hmem⟩⟩
  obtain ⟨hreport, hmatch⟩ := List.mem_filter.1 (List.of_mem_zip hmem).2
  exact levels.2 _ hreport hmatch

/-- A declaration without its semicolon is refused, and the token in its place is matched after
that; the logs are as long as each other. -/
theorem verbose_only_announces_after_refusal :
    let tokens : TokenStream := [⟨.keyword .staticKw, 1⟩, ⟨.keyword .varKw, 1⟩,
      ⟨.identifier "x", 2⟩, ⟨.number "1", 2⟩, .eof 2]
    let quiet := ofTokens tokens "a.sir" false
    let verbose := ofTokens tokens "a.sir" true
    let body : Recog Bool := do
      let _ ← outcome recognize
      matchKind .number
    result body verbose = .ok true ∧ result body quiet = .ok true ∧
      (leaves body quiet).reports.size = (leaves body verbose).reports.size ∧
      (∀ report ∈ (leaves body quiet).reports.toList, report.level ≠ .info) ∧
      (leaves body verbose).matched.toList = tokens.take 4 ∧
      (leaves body verbose).matchReports.map (fun report => (report.level, report.event.message)) =
        [(.info, "Matched keyword 'static'"), (.info, "Matched keyword 'var'"),
          (.info, "Matched token 2:(IDENTIFIER, x)"), (.info, "Matched token 2:(NUMBER, 1)")] := by
  intro tokens quiet verbose body
  have unaware : Unaware body := .bind (.outcome .recognize) fun _ => .blind (.matchKind .number)
  obtain ⟨same, -⟩ := verbose_only_announces (@Together.start quiet verbose)
  obtain ⟨-, -, -, opens, silent, tells⟩ := verbose_only_announces (.operation .start unaware)
  have answer : result body verbose = .ok true := by decide +kernel
  refine ⟨answer, (same body unaware).symm.trans answer, ?_, silent, by decide +kernel,
    by decide +kernel⟩
  rw [← Array.length_toList, ← Array.length_toList, opens.length_eq]

end Recognizer
end FrontEnd
