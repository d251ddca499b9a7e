import FrontEnd.Proofs.Recognizer.Continuation
import FrontEnd.Proofs.Recognizer.Path

/-!
# FrontEnd.Proofs.Recognizer.Asking

What the productions ask for.

* `Recog.Asks heading body` — the body asks for tokens by their kinds and for keywords by their
  names, never for the end of input; if it is not `heading`, for no keyword at all, and it reports
  no declaration.
* `Recognizer.Stride` — the changes that such a body can make, one at a time.
* `Recog.Asks.strides` — so it takes the recognizer on by these, however it ends.
* `Recog.Asks.located_of_refused` — and what it refuses is the lookahead at the end.
* `Recog.asks_declaration` — the declarations ask so. Only their first token, or the two first,
  are keywords (`Recog.asks_variableList`, `Recog.asks_routineBody`, …).
* `Recognizer.Idle` — nothing is consumed or declared between the two.
* `Recognizer.recognize_idle` — so it is from the end of the declarations to that of a verdict; and
  what a verdict refuses, it refuses at the line where it stands.
-/

namespace FrontEnd

/-- For a report of a declaration, its text. -/
def RecognizerEvent.header? : RecognizerEvent → Option String
  | declared file line storage what => some (message (declared file line storage what))
  | matchedToken _ | rejectedToken .. | matchedKeyword _ | rejectedKeyword .. | entering ..
  | leaving .. | recognizing _ | accepted _ | rejected .. => none

namespace Recognizer

/-- The texts of the declarations reported, in order. -/
def headers (r : Recognizer) : List String :=
  r.reports.toList.filterMap fun report => report.event.header?

theorem headers_note {r : Recognizer} {level : Level} {event : RecognizerEvent} :
    (r.note level event).headers = r.headers ++ event.header?.toList := by
  rw [headers, note, Array.toList_push, List.filterMap_append]
  cases h : event.header? <;> simp [headers, h]

theorem headers_announce {r : Recognizer} {event : RecognizerEvent} :
    (r.announce event).headers = r.headers ++ event.header?.toList := headers_note

/-- A change that a production makes: a report of neither a match nor a declaration, a match of a
token that is neither a keyword nor the end of input, or a production opened or closed; and, if it
is `heading` declarations, the match of a keyword by its name, or the report of a declaration. -/
inductive Stride (heading : Prop) : Recognizer → Recognizer → Prop
  | note {r : Recognizer} {level : Level} {event : RecognizerEvent} :
    event.byKeyword? = none → event.header? = none → Stride heading r (r.note level event)
  | token {r : Recognizer} : r.lookahead.kind ≠ .keyword → r.lookahead.kind ≠ .eof →
    Stride heading r (r.announce (.matchedToken r.lookahead)).consume
  | keyword {r : Recognizer} {k : Keyword} : heading → r.lookahead.isKeyword k = true →
    Stride heading r (r.announce (.matchedKeyword k)).consume.track
  | declared {r : Recognizer} (storage : Storage) (what : Declared) : heading →
    Stride heading r (r.announce (.declared r.file r.line storage what))
  | nest {r : Recognizer} (names : List String) : Stride heading r { r with nesting := names }

abbrev Strides (heading : Prop) : Recognizer → Recognizer → Prop :=
  Relation.ReflTransGen (Stride heading)

variable {heading : Prop} {r r' : Recognizer}

theorem Stride.announce {event : RecognizerEvent} (hk : event.byKeyword? = none)
    (hh : event.header? = none) : Stride heading r (r.announce event) := .note hk hh

theorem strides_enter {name : String} : Strides heading r (r.enter name) :=
  .tail (.single (.note rfl rfl)) (.nest _)

theorem strides_leave {name : String} : Strides heading r (r.leave name) :=
  .tail (.single (.nest _)) (.note rfl rfl)

/-- For every token, whether it is a keyword. -/
def keywords (tokens : TokenStream) : List Bool := tokens.map fun token => token.kind = .keyword

theorem kind_of_isKeyword {token : Token} {k : Keyword} (h : token.isKeyword k = true) :
    token.kind = .keyword := congrArg Token.Form.kind (of_decide_eq_true h)

theorem byKeyword_consume {event : RecognizerEvent}
    (hr : r.byKeyword = keywords r.matched.toList)
    (he : event.byKeyword? = some (decide (r.lookahead.kind = .keyword))) :
    (r.announce event).consume.byKeyword = keywords (r.announce event).consume.matched.toList := by
  have reported : (r.announce event).consume.byKeyword = r.byKeyword ++ event.byKeyword?.toList :=
    byKeyword_announce
  have consumed : (r.announce event).consume.matched.toList = r.matched.toList ++ [r.lookahead] :=
    Array.toList_push
  rw [reported, consumed, hr, he, keywords, keywords, List.map_append]
  rfl

/-- Keywords are matched as keywords, and nothing else is. -/
theorem Strides.byKeyword (h : Strides heading r r')
    (hr : r.byKeyword = keywords r.matched.toList) :
    r'.byKeyword = keywords r'.matched.toList := by
  induction h with
  | refl => exact hr
  | tail _ hstride ih =>
    cases hstride with
    | note hk =>
      rw [byKeyword_note, hk, Option.toList_none, List.append_nil]
      exact ih
    | token hkeyword =>
      exact byKeyword_consume ih (congrArg some (decide_eq_false hkeyword).symm)
    | keyword _ hk =>
      exact byKeyword_consume ih (congrArg some (decide_eq_true (kind_of_isKeyword hk)).symm)
    | declared =>
      rw [byKeyword_announce]
      exact (List.append_nil _).trans ih
    | nest => exact ih

theorem Strides.file (h : Strides heading r r') : r'.file = r.file := by
  induction h with
  | refl => rfl
  | tail _ hstride ih => cases hstride <;> exact ih

/-- Without a heading nothing is declared, and the tokens read are no keywords, so that the line
stays, too. -/
theorem Strides.exists_reads (h : Strides False r r') :
    r'.line = r.line ∧ r'.headers = r.headers ∧
      ∃ w, r.cursor.Reads w r'.cursor ∧ ∀ token ∈ w, token.kind ≠ .keyword := by
  induction h with
  | refl => exact ⟨rfl, rfl, [], .refl, List.forall_mem_nil _⟩
  | @tail r₁ r₂ _ hstride ih =>
    obtain ⟨hline, hheaders, w, hreads, hw⟩ := ih
    cases hstride with
    | note _ hh =>
      rw [headers_note, hh, Option.toList_none, List.append_nil]
      exact ⟨hline, hheaders, w, hreads, hw⟩
    | token hkeyword heof =>
      have reported : (r₁.announce (.matchedToken r₁.lookahead)).consume.headers = r₁.headers :=
        headers_announce.trans (List.append_nil _)
      have next : r₁.cursor.Reads [r₁.lookahead]
          (r₁.announce (.matchedToken r₁.lookahead)).consume.cursor := by
        rw [cursor_consume]
        exact .single heof
      exact ⟨hline, reported.trans hheaders, _, hreads.trans next,
        List.forall_mem_append.2 ⟨hw, List.forall_mem_singleton.2 hkeyword⟩⟩
    | keyword heading => exact heading.elim
    | declared _ _ heading => exact heading.elim
    | nest => exact ⟨hline, hheaders, w, hreads, hw⟩

end Recognizer

namespace Recog

open Recognizer Recognizer.Grammar

/-- Computations made of the operations as the productions use them: no kind that they ask for is
that of keywords or of the end of input, and only if they are `heading` declarations do they ask for
keywords and report declarations. -/
inductive Asks (heading : Prop) : {α : Type} → Recog α → Prop
  | pure {α : Type} (a : α) : Asks heading (pure a)
  | refuse {α : Type} (what : String) : Asks heading (refuse what : Recog α)
  | matchKind {kind : TokenKind} : kind ≠ .keyword → kind ≠ .eof → Asks heading (matchKind kind)
  | matchKeyword (k : Keyword) : heading → Asks heading (matchKeyword k)
  | report (storage : Storage) (what : Declared) : heading → Asks heading (report storage what)
  | bind {α β : Type} {body : Recog α} {f : α → Recog β} : Asks heading body →
    (∀ a, Asks heading (f a)) → Asks heading (body >>= f)
  | cut {α : Type} {body : Recog α} : Asks heading body → Asks heading (cut body)
  | within {α : Type} {body : Recog α} (name : String) : Asks heading body →
    Asks heading (within name body)
  | attempt {body : Recog Unit} (name : String) : Asks heading body →
    Asks heading (attempt name body)
  | otherwise {α : Type} {body other : Recog α} : Asks heading body → Asks heading other →
    Asks heading (otherwise body other)
  | repeatWhile {step : Recog Bool} : Asks heading step → Asks heading (repeatWhile step)

theorem strides_leaves_within {heading : Prop} {α : Type} {body : Recog α} {name : String}
    {r : Recognizer} (h : Strides heading (r.enter name) (leaves body (r.enter name))) :
    Strides heading r (leaves (within name body) r) := by
  refine (strides_enter.trans h).trans ?_
  unfold leaves within
  cases hb : body (r.enter name) with
  | ok a r' => exact strides_leave
  | error stop r' => cases stop with
    | refused refusal => exact strides_leave
    | misuse => exact .refl

namespace Asks

variable {heading : Prop} {α : Type} {body other : Recog α} {r r' : Recognizer}

theorem strides (h : Asks heading body) (r : Recognizer) :
    Strides heading r (leaves body r) := by
  induction h generalizing r with
  | pure => exact .refl
  | refuse => exact .refl
  | @matchKind kind hkeyword heof =>
    unfold leaves Recognizer.matchKind
    by_cases hk : r.lookahead.kind = kind
    · rw [if_pos hk]
      exact .single (.token (hk ▸ hkeyword) (hk ▸ heof))
    · rw [if_neg hk]
      exact .single (.announce rfl rfl)
  | matchKeyword k hheading =>
    unfold leaves Recognizer.matchKeyword
    by_cases hk : r.lookahead.isKeyword k = true
    · rw [if_pos hk]
      exact .single (.keyword hheading hk)
    · rw [if_neg hk]
      exact .single (.announce rfl rfl)
  | report storage what hheading => exact .single (.declared storage what hheading)
  | @bind _ _ body f _ _ ih ihf =>
    have first := ih r
    cases hb : body r with
    | ok a r' =>
      rw [leaves_of_ok hb] at first
      rw [leaves, bind_of_ok hb]
      exact first.trans (ihf a r')
    | error stop r' =>
      rw [leaves_of_error hb] at first
      rw [leaves, bind_of_error hb]
      exact first
  | cut _ ih =>
    rw [leaves_cut]
    exact ih r
  | within name _ ih => exact strides_leaves_within (ih _)
  | attempt name _ ih =>
    rw [leaves_attempt]
    exact strides_leaves_within (ih _)
  | @otherwise _ body other _ _ ih iho =>
    have first := ih r
    cases hb : body r with
    | ok a r' =>
      rw [leaves_of_ok hb] at first
      rw [leaves, Recog.otherwise, hb]
      exact first
    | error stop r' =>
      rw [leaves_of_error hb] at first
      rw [leaves, Recog.otherwise, hb]
      cases stop with
      | refused refusal => cases refusal with
        | recoverable error => exact first.trans (iho r')
        | fatal error => exact first
      | misuse => exact first
  | @repeatWhile step _ ih =>
    -- the rounds behind the first one have fewer tokens left
    induction hn : r.pending using Nat.strongRecOn generalizing r with
    | ind n rounds =>
      subst hn
      have first := ih r
      rw [leaves, repeatWhile_eq]
      cases hs : step r with
      | ok again r' =>
        rw [leaves_of_ok hs] at first
        rw [bind_of_ok hs]
        unfold goesOn
        by_cases hmore : again ∧ r'.pending < r.pending
        · rw [if_pos hmore]
          exact first.trans (rounds _ hmore.2 r' rfl)
        · rw [if_neg hmore]
          exact first
      | error stop r' =>
        rw [leaves_of_error hs] at first
        rw [bind_of_error hs]
        exact first

/-- What is refused is the lookahead, at the line of the recognizer. -/
theorem located_of_refused (h : Asks heading body) {refusal : Refusal}
    (hr : body r = .error (.refused refusal) r') :
    ∃ what, refusal.error.located = ⟨.expected what r'.lookahead, r'.file, r'.line⟩ := by
  induction h generalizing r r' refusal with
  | pure => cases hr
  | refuse what =>
    cases hr
    exact ⟨what, rfl⟩
  | matchKind =>
    unfold Recognizer.matchKind at hr
    split at hr <;> cases hr
  | matchKeyword =>
    unfold Recognizer.matchKeyword at hr
    split at hr <;> cases hr
  | report => cases hr
  | bind _ _ ih ihf =>
    rcases bind_eq_refused_iff.1 hr with hr | ⟨a, r₁, -, hr⟩
    · exact ih hr
    · exact ihf a hr
  | cut _ ih =>
    obtain ⟨inner, hinner, rfl⟩ := cut_eq_refused_iff.1 hr
    rw [Refusal.error_cut]
    exact ih hinner
  | within name _ ih =>
    obtain ⟨r₁, hinner, rfl⟩ := within_eq_refused_iff.1 hr
    obtain ⟨what, located⟩ := ih hinner
    exact ⟨what, located⟩
  | attempt name _ ih =>
    obtain ⟨error, rfl, hwithin⟩ := attempt_eq_refused_iff.1 hr
    obtain ⟨r₁, hinner, rfl⟩ := within_eq_refused_iff.1 hwithin
    obtain ⟨what, located⟩ := ih hinner
    exact ⟨what, located⟩
  | otherwise _ _ ih iho =>
    rcases otherwise_eq_refused_iff.1 hr with ⟨error, rfl, hfatal⟩ | ⟨error, r₁, -, hother⟩
    · exact ih hfatal
    · exact iho hother
  | @repeatWhile step _ ih =>
    induction hn : r.pending using Nat.strongRecOn generalizing r with
    | ind n rounds =>
      subst hn
      rcases repeatWhile_eq_refused_iff.1 hr with hr | ⟨r₁, -, hlt, hr⟩
      · exact ih hr
      · exact rounds _ hlt hr rfl

theorem ite (found : Bool) (h : Asks heading body) (ho : Asks heading other) :
    Asks heading (if found then body else other) := by
  cases found
  · exact ho
  · exact h

theorem expect {kind : TokenKind} (what : String) (hkeyword : kind ≠ .keyword)
    (heof : kind ≠ .eof) : Asks heading (expect kind what) :=
  .bind (.matchKind hkeyword heof) fun found => .ite found (.pure ()) (.refuse what)

theorem expectKeyword (k : Keyword) (what : String) (h : heading) :
    Asks heading (expectKeyword k what) :=
  .bind (.matchKeyword k h) fun found => .ite found (.pure ()) (.refuse what)

end Asks

variable {heading : Prop}

theorem asks_expression : Asks heading expression := by
  have tried (kinds : List TokenKind) (h : ∀ kind ∈ kinds, kind ≠ .keyword ∧ kind ≠ .eof) :
      Asks heading (kinds.anyM Recognizer.matchKind : Recog Bool) := by
    induction kinds with
    | nil => exact .pure false
    | cons kind kinds ih =>
      obtain ⟨hkind, hkinds⟩ := List.forall_mem_cons.1 h
      refine .bind (.matchKind hkind.1 hkind.2) fun found => ?_
      cases found with
      | false => exact ih hkinds
      | true => exact .pure true
  exact .bind (tried constantKinds (by decide)) fun found => .ite found (.pure ()) (.refuse _)

theorem asks_idList : Asks heading idList :=
  .bind (.expect _ (by decide) (by decide)) fun _ => .repeatWhile <|
    .bind (.matchKind (by decide) (by decide)) fun found =>
      .ite found (.bind (.cut (.expect _ (by decide) (by decide))) fun _ => .pure true)
        (.pure false)

theorem asks_varDeclaration : Asks heading varDeclaration :=
  .bind (.within _ asks_idList) fun _ => .bind (.matchKind (by decide) (by decide)) fun found =>
    .ite found (.cut (.within _ asks_expression)) (.pure ())

theorem asks_varDeclarationList : Asks heading varDeclarationList :=
  .bind (.within _ asks_varDeclaration) fun _ => .repeatWhile <|
    .bind (.matchKind (by decide) (by decide)) fun found =>
      .ite found (.bind (.cut (.within _ asks_varDeclaration)) fun _ => .pure true) (.pure false)

theorem asks_variableList (storage : Storage) : Asks heading (variableList storage) := by
  cases storage with
  | external => exact .cut (.within _ asks_idList)
  | classic | static => exact .cut (.within _ asks_varDeclarationList)

theorem asks_globalVar (storage : Storage) (h : heading) : Asks heading (globalVar storage) :=
  .bind (.expectKeyword _ _ h) fun _ => .bind (asks_variableList storage) fun _ =>
    .bind (.cut (.expect _ (by decide) (by decide))) fun _ => .report _ _ h

theorem asks_argumentList : Asks heading argumentList :=
  .bind (.expect _ (by decide) (by decide)) fun _ =>
    .bind (.matchKind (by decide) (by decide)) fun found =>
      .ite found (.pure ()) <| .bind (.cut (.within _ asks_idList)) fun _ =>
        .cut (.expect _ (by decide) (by decide))

/-- A routine header behind its keyword. -/
theorem asks_routineName :
    Asks heading (do
      cut (expect .identifier "routine name identifier")
      cut (within "argument_list" argumentList)) :=
  .bind (.cut (.expect _ (by decide) (by decide))) fun _ => .cut (.within _ asks_argumentList)

theorem asks_labelDeclaration : Asks heading labelDeclaration :=
  .bind (.expect _ (by decide) (by decide)) fun _ => .cut (.expect _ (by decide) (by decide))

theorem asks_statement : Asks heading statement :=
  .bind (.matchKind (by decide) (by decide)) fun found =>
    .ite found (.pure ()) (.within _ asks_labelDeclaration)

theorem asks_block : Asks heading block :=
  .bind (.expect _ (by decide) (by decide)) fun _ =>
    .bind (.within _ (.repeatWhile (.attempt _ asks_statement))) fun _ =>
      .cut (.expect _ (by decide) (by decide))

theorem asks_routineBody (storage : Storage) : Asks heading (routineBody storage) := by
  cases storage with
  | external => exact .cut (.expect _ (by decide) (by decide))
  | classic | static => exact .cut (.within _ asks_block)

theorem asks_routineDeclaration (storage : Storage) (h : heading) :
    Asks heading (routineDeclaration storage) :=
  .bind (.within _ (.bind (.expectKeyword _ _ h) fun _ => asks_routineName)) fun _ =>
    .bind (asks_routineBody storage) fun _ => .report _ _ h

theorem asks_routine (storage : Storage) (h : heading) : Asks heading (routine storage) := by
  by_cases hs : storage = .classic
  · rw [hs, routine_classic]
    exact .within _ (asks_routineDeclaration _ h)
  · rw [routine_modified hs]
    exact .otherwise (.within _ (asks_routineDeclaration _ h)) (.cut (.refuse _))

theorem asks_storageModifier (h : heading) : Asks heading storageModifier :=
  .bind (.matchKeyword _ h) fun found => .ite found (.pure _) <|
    .bind (.matchKeyword _ h) fun found => .ite found (.pure _) (.pure _)

theorem asks_declaration (h : heading) : Asks heading declaration :=
  .bind (asks_storageModifier h) fun storage =>
    .bind (.attempt _ (asks_globalVar storage h)) fun done =>
      .ite done (.pure ()) (asks_routine storage h)

/-- A program up to the end of input, which is all that is expected behind it. -/
def declarationLoop : Recog Unit := repeatWhile (attempt "declaration" declaration)

theorem asks_declarationLoop (h : heading) : Asks heading declarationLoop :=
  .repeatWhile (.attempt _ (asks_declaration h))

end Recog

namespace Recognizer

open Recog

/-- Nothing is consumed, matched or declared between the two. -/
structure Idle (r r' : Recognizer) : Prop where
  cursor : r'.cursor = r.cursor
  line : r'.line = r.line
  file : r'.file = r.file
  byKeyword : r'.byKeyword = r.byKeyword
  headers : r'.headers = r.headers

namespace Idle

variable {r r' r'' : Recognizer}

theorem refl : Idle r r := ⟨rfl, rfl, rfl, rfl, rfl⟩

theorem trans (h : Idle r r') (h' : Idle r' r'') : Idle r r'' :=
  ⟨h'.cursor.trans h.cursor, h'.line.trans h.line, h'.file.trans h.file,
    h'.byKeyword.trans h.byKeyword, h'.headers.trans h.headers⟩

theorem note {level : Level} {event : RecognizerEvent} (hk : event.byKeyword? = none)
    (hh : event.header? = none) : Idle r (r.note level event) :=
  ⟨rfl, rfl, rfl, by rw [byKeyword_note, hk, Option.toList_none, List.append_nil],
    by rw [headers_note, hh, Option.toList_none, List.append_nil]⟩

theorem enter {name : String} : Idle r (r.enter name) :=
  ⟨rfl, rfl, rfl, (note rfl rfl).byKeyword, (note rfl rfl).headers⟩

theorem leave {name : String} : Idle r (r.leave name) :=
  ⟨rfl, rfl, rfl, (note rfl rfl).byKeyword, (note rfl rfl).headers⟩

theorem poison (h : Idle r r') : Idle r { r' with poisoned := true } :=
  ⟨h.cursor, h.line, h.file, h.byKeyword, h.headers⟩

end Idle

variable {r r' : Recognizer} {refusal : Refusal}

theorem idle_begun : Idle r r.begun := .trans (.note rfl rfl) .enter

/-- What is refused has been refused as a program. -/
theorem exists_program_of_refused (hp : r.poisoned = false)
    (h : recognize r = .error (.refused refusal) r') :
    ∃ r₁, Grammar.program r.begun = .error (.refused refusal) r₁ ∧
      r' = { (r₁.leave "program").note .debug (.rejected r₁.file refusal) with
        poisoned := true } := by
  unfold recognize at h
  rw [if_neg (by rw [hp]; exact Bool.false_ne_true)] at h
  cases hw : within "program" Grammar.program (r.note .debug (.recognizing r.file)) with
  | ok a r₂ =>
    rw [hw] at h
    cases h
  | error stop r₂ =>
    rw [hw] at h
    cases stop with
    | misuse => cases h
    | refused inner =>
      cases h
      obtain ⟨r₁, hr₁, rfl⟩ := within_eq_refused_iff.1 hw
      exact ⟨r₁, hr₁, rfl⟩

/-- A verdict does nothing but read declarations, one after the other, and look what is behind
them. What it refuses is refused where it stands then. -/
theorem recognize_idle (hp : r.poisoned = false) :
    Idle (leaves declarationLoop r.begun) (leaves recognize r) ∧
      (∀ r', recognize r = .ok () r' → ∃ r₁, declarationLoop r.begun = .ok () r₁) ∧
      ∀ refusal r', recognize r = .error (.refused refusal) r' →
        refusal.error.located.line = r'.line := by
  cases hs : recognize r with
  | ok a r' =>
    obtain ⟨-, r₁, hr₁, rfl⟩ := recognize_eq_ok_iff.1 hs
    obtain ⟨_, r₂, hloop, hend⟩ := bind_eq_ok_iff.1 hr₁
    unfold Grammar.endOfInput at hend
    split at hend
    · cases hend
      have hleaves : leaves declarationLoop r.begun = _ := leaves_of_ok hloop
      rw [leaves_of_ok hs, hleaves]
      exact ⟨.trans .leave (.note rfl rfl), fun _ _ => ⟨_, hloop⟩, by rintro _ _ ⟨⟩⟩
    · cases hend
  | error stop r' =>
    obtain ⟨error, -, -, rfl, -⟩ := rejects_of_refused hp hs
    obtain ⟨r₁, hr₁, rfl⟩ := exists_program_of_refused hp hs
    have refused : leaves declarationLoop r.begun = r₁ ∧ error.located.line = r₁.line := by
      rcases bind_eq_refused_iff.1 hr₁ with hloop | ⟨_, r₂, hloop, hend⟩
      · obtain ⟨what, located⟩ := (asks_declarationLoop trivial).located_of_refused hloop
        exact ⟨leaves_of_error hloop, congrArg Located.line located⟩
      · unfold Grammar.endOfInput at hend
        split at hend
        · cases hend
        · cases hend
          exact ⟨leaves_of_ok hloop, rfl⟩
    obtain ⟨hleaves, hline⟩ := refused
    rw [hleaves, leaves_of_error hs]
    refine ⟨.poison (.trans .leave (.note rfl rfl)), by rintro _ ⟨⟩, ?_⟩
    rintro refusal r' ⟨⟩
    exact hline

end Recognizer
end FrontEnd
