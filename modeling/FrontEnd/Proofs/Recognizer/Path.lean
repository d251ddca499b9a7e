import FrontEnd.Proofs.Recognizer.Session

/-!
# FrontEnd.Proofs.Recognizer.Path

The path of an error: the productions around the step that raised it.

* `Recog.Raises body r names refusal` — a step of the computation raises the refusal, and the
  productions around the step are these, the outermost first.
* `Recog.Raises.path` — the refusal has the productions open at the beginning and then these for
  its path, whatever was run before, and whatever became of it on the way out.
* `Recog.Composed.exists_raises` — every refusal is raised by a step, and each production on the
  path runs the next one.
* `Recognizer.path_of_refused` — both together, for any production and for the verdict.
-/

namespace FrontEnd

theorem Refusal.error_cut (refusal : Refusal) : refusal.cut.error = refusal.error := by
  cases refusal <;> rfl

namespace Recog

open Recognizer Recognizer.Grammar

section Refused

variable {α β : Type} {body other : Recog α} {r r' : Recognizer} {refusal : Refusal}

theorem bind_eq_refused_iff {f : α → Recog β} :
    (body >>= f) r = .error (.refused refusal) r' ↔
      body r = .error (.refused refusal) r' ∨
        ∃ a r₁, body r = .ok a r₁ ∧ f a r₁ = .error (.refused refusal) r' := by
  cases hb : body r with
  | ok a r₁ =>
    rw [bind_of_ok hb]
    constructor
    · exact fun h => .inr ⟨a, r₁, rfl, h⟩
    · rintro (⟨⟨⟩⟩ | ⟨_, _, ⟨⟩, h⟩)
      exact h
  | error stop r₁ =>
    rw [bind_of_error hb]
    constructor
    · rintro ⟨⟩
      exact .inl rfl
    · rintro (⟨⟨⟩⟩ | ⟨_, _, ⟨⟩, _⟩)
      rfl

theorem cut_eq_refused_iff : cut body r = .error (.refused refusal) r' ↔
    ∃ inner, body r = .error (.refused inner) r' ∧ refusal = inner.cut := by
  unfold cut
  cases body r with
  | ok a r₁ => simp
  | error stop r₁ =>
    cases stop with
    | misuse => simp
    | refused inner =>
      constructor
      · rintro ⟨⟩
        exact ⟨inner, rfl, rfl⟩
      · rintro ⟨_, ⟨⟩, rfl⟩
        rfl

theorem within_eq_refused_iff {name : String} :
    within name body r = .error (.refused refusal) r' ↔
      ∃ r₁, body (r.enter name) = .error (.refused refusal) r₁ ∧ r' = r₁.leave name := by
  unfold within
  cases body (r.enter name) with
  | ok a r₁ => simp
  | error stop r₁ =>
    cases stop with
    | misuse => simp
    | refused inner =>
      constructor
      · rintro ⟨⟩
        exact ⟨r₁, rfl, rfl⟩
      · rintro ⟨_, ⟨⟩, rfl⟩
        rfl

/-- A recoverable refusal does not get past an attempt. -/
theorem attempt_eq_refused_iff {name : String} {body : Recog Unit} :
    attempt name body r = .error (.refused refusal) r' ↔
      ∃ error, refusal = .fatal error ∧
        within name body r = .error (.refused (.fatal error)) r' := by
  unfold attempt
  cases within name body r with
  | ok a r₁ => simp
  | error stop r₁ =>
    cases stop with
    | misuse => simp
    | refused inner =>
      cases inner with
      | recoverable error => by_cases hm : r₁.matched.size = r.matched.size <;> simp [hm]
      | fatal error =>
        constructor
        · rintro ⟨⟩
          exact ⟨error, rfl, rfl⟩
        · rintro ⟨_, rfl, ⟨⟩⟩
          rfl

theorem otherwise_eq_refused_iff :
    otherwise body other r = .error (.refused refusal) r' ↔
      (∃ error, refusal = .fatal error ∧ body r = .error (.refused (.fatal error)) r') ∨
        ∃ error r₁, body r = .error (.refused (.recoverable error)) r₁ ∧
          other r₁ = .error (.refused refusal) r' := by
  unfold otherwise
  cases body r with
  | ok a r₁ => simp
  | error stop r₁ =>
    cases stop with
    | misuse => simp
    | refused inner =>
      cases inner with
      | recoverable error =>
        constructor
        · exact fun h => .inr ⟨error, r₁, rfl, h⟩
        · rintro (⟨_, _, ⟨⟩⟩ | ⟨_, _, ⟨⟩, h⟩)
          exact h
      | fatal error =>
        constructor
        · rintro ⟨⟩
          exact .inl ⟨error, rfl, rfl⟩
        · rintro (⟨_, rfl, ⟨⟩⟩ | ⟨_, _, ⟨⟩, _⟩)
          rfl

theorem repeatWhile_eq_refused_iff {step : Recog Bool} :
    repeatWhile step r = .error (.refused refusal) r' ↔
      step r = .error (.refused refusal) r' ∨
        ∃ r₁, step r = .ok true r₁ ∧ r₁.pending < r.pending ∧
          repeatWhile step r₁ = .error (.refused refusal) r' := by
  rw [repeatWhile_eq, bind_eq_refused_iff]
  refine or_congr_right ?_
  constructor
  · rintro ⟨again, r₁, hs, h⟩
    unfold goesOn at h
    split at h
    · rename_i hmore
      obtain ⟨rfl, hlt⟩ := hmore
      exact ⟨r₁, hs, hlt, h⟩
    · cases h
  · rintro ⟨r₁, hs, hlt, h⟩
    refine ⟨true, r₁, hs, ?_⟩
    rwa [goesOn, if_pos ⟨rfl, hlt⟩]

end Refused

/-- A step of the computation raises the refusal, and `names` are the productions around that step,
the outermost first. What is passed or recovered from before it is no part of them, and neither is
what is done to the refusal on the way out. -/
inductive Raises : {α : Type} → Recog α → Recognizer → List String → Refusal → Prop
  | refuse {α : Type} {what : String} {r : Recognizer} :
    Raises (refuse what : Recog α) r [] (r.refusal what)
  | endOfInput {r : Recognizer} : r.lookahead.kind ≠ .eof →
    Raises endOfInput r [] (.fatal (r.syntaxError (.expectedEnd r.lookahead)))
  | first {α β : Type} {body : Recog α} {f : α → Recog β} {r : Recognizer} {names : List String}
      {refusal : Refusal} :
    Raises body r names refusal → Raises (body >>= f) r names refusal
  | later {α β : Type} {body : Recog α} {f : α → Recog β} {a : α} {r r' : Recognizer}
      {names : List String} {refusal : Refusal} :
    Blind body → body r = .ok a r' → Raises (f a) r' names refusal →
    Raises (body >>= f) r names refusal
  | cut {α : Type} {body : Recog α} {r : Recognizer} {names : List String} {refusal : Refusal} :
    Raises body r names refusal → Raises (cut body) r names refusal.cut
  | within {α : Type} {name : String} {body : Recog α} {r : Recognizer} {names : List String}
      {refusal : Refusal} :
    Raises body (r.enter name) names refusal → Raises (within name body) r (name :: names) refusal
  | attempt {name : String} {body : Recog Unit} {r : Recognizer} {names : List String}
      {error : SyntaxError} :
    Raises body (r.enter name) names (.fatal error) →
    Raises (attempt name body) r (name :: names) (.fatal error)
  | kept {α : Type} {body other : Recog α} {r : Recognizer} {names : List String}
      {error : SyntaxError} :
    Raises body r names (.fatal error) → Raises (otherwise body other) r names (.fatal error)
  | instead {α : Type} {body other : Recog α} {r r' : Recognizer} {error : SyntaxError}
      {names : List String} {refusal : Refusal} :
    Blind body → body r = .error (.refused (.recoverable error)) r' →
    Raises other r' names refusal → Raises (otherwise body other) r names refusal
  | round {step : Recog Bool} {r : Recognizer} {names : List String} {refusal : Refusal} :
    Raises step r names refusal → Raises (repeatWhile step) r names refusal
  | again {step : Recog Bool} {r r' : Recognizer} {names : List String} {refusal : Refusal} :
    Blind step → step r = .ok true r' → r'.pending < r.pending →
    Raises (repeatWhile step) r' names refusal → Raises (repeatWhile step) r names refusal

namespace Raises

variable {α : Type} {body : Recog α} {r : Recognizer} {names names' : List String}
  {refusal : Refusal}

/-- What is raised escapes. -/
theorem exists_refused (h : Raises body r names refusal) :
    ∃ r', body r = .error (.refused refusal) r' := by
  induction h with
  | @refuse _ _ r => exact ⟨r, rfl⟩
  | @endOfInput r hkind => exact ⟨r, by rw [Grammar.endOfInput, if_neg hkind]⟩
  | first _ ih =>
    obtain ⟨r', hr⟩ := ih
    exact ⟨r', bind_eq_refused_iff.2 (.inl hr)⟩
  | later _ hbody _ ih =>
    obtain ⟨r', hr⟩ := ih
    exact ⟨r', bind_eq_refused_iff.2 (.inr ⟨_, _, hbody, hr⟩)⟩
  | cut _ ih =>
    obtain ⟨r', hr⟩ := ih
    exact ⟨r', cut_eq_refused_iff.2 ⟨_, hr, rfl⟩⟩
  | @within _ name _ _ _ _ _ ih =>
    obtain ⟨r', hr⟩ := ih
    exact ⟨r'.leave name, within_eq_refused_iff.2 ⟨r', hr, rfl⟩⟩
  | @attempt name _ _ _ error _ ih =>
    obtain ⟨r', hr⟩ := ih
    exact ⟨r'.leave name,
      attempt_eq_refused_iff.2 ⟨error, rfl, within_eq_refused_iff.2 ⟨r', hr, rfl⟩⟩⟩
  | kept _ ih =>
    obtain ⟨r', hr⟩ := ih
    exact ⟨r', otherwise_eq_refused_iff.2 (.inl ⟨_, rfl, hr⟩)⟩
  | instead _ hbody _ ih =>
    obtain ⟨r', hr⟩ := ih
    exact ⟨r', otherwise_eq_refused_iff.2 (.inr ⟨_, _, hbody, hr⟩)⟩
  | round _ ih =>
    obtain ⟨r', hr⟩ := ih
    exact ⟨r', repeatWhile_eq_refused_iff.2 (.inl hr)⟩
  | again _ hstep hlt _ ih =>
    obtain ⟨r', hr⟩ := ih
    exact ⟨r', repeatWhile_eq_refused_iff.2 (.inr ⟨_, hstep, hlt, hr⟩)⟩

/-- The path says where it was raised: what is passed leaves the open productions as they were, so
those at the step are those at the beginning and the ones around it. -/
theorem path (h : Raises body r names refusal) :
    refusal.error.path = some (r.nesting.reverse ++ names) := by
  have entered {r : Recognizer} {name : String} {names : List String} :
      (r.enter name).nesting.reverse ++ names = r.nesting.reverse ++ name :: names := by
    simp [enter, note]
  induction h with
  | refuse => rw [List.append_nil]; rfl
  | endOfInput => rw [List.append_nil]; rfl
  | first _ ih => exact ih
  | @later _ _ _ _ _ r _ _ _ hblind hbody _ ih => rwa [(hblind.restores r).of_ok hbody] at ih
  | cut _ ih => rwa [Refusal.error_cut]
  | within _ ih => rwa [entered] at ih
  | attempt _ ih => rwa [entered] at ih
  | kept _ ih => exact ih
  | @instead _ _ _ r _ _ _ _ hblind hbody _ ih => rwa [(hblind.restores r).of_refused hbody] at ih
  | round _ ih => exact ih
  | @again _ r _ _ _ hblind hstep _ _ ih => rwa [(hblind.restores r).of_ok hstep] at ih

theorem unique (h : Raises body r names refusal) (h' : Raises body r names' refusal) :
    names' = names :=
  List.append_cancel_left (Option.some.inj (h'.path.symm.trans h.path))

end Raises

/-- Everything runs anything. -/
theorem Blind.composed {α : Type} {body : Recog α} (h : Blind body) (owner : String) :
    Composed (fun _ _ => True) owner body := by
  induction h generalizing owner with
  | pure a => exact .pure a
  | refuse what => exact .refuse what
  | matchKind kind => exact .matchKind kind
  | matchKeyword k => exact .matchKeyword k
  | report storage what => exact .report storage what
  | endOfInput => exact .endOfInput
  | bind _ _ ih ihf => exact .bind (ih owner) fun a => ihf a owner
  | cut _ ih => exact .cut (ih owner)
  | within name _ ih => exact .within trivial (ih name)
  | attempt name _ ih => exact .attempt trivial (ih name)
  | otherwise _ _ ih iho => exact .otherwise (ih owner) (iho owner)
  | repeatWhile _ ih => exact .repeatWhile (ih owner)

/-- Every refusal is raised by a step, and each production around it runs the next one. -/
theorem Composed.exists_raises {runs : String → String → Prop} {owner : String} {α : Type}
    {body : Recog α} (h : Composed runs owner body) {r r' : Recognizer} {refusal : Refusal}
    (hr : body r = .error (.refused refusal) r') :
    ∃ names, Raises body r names refusal ∧ (owner :: names).IsChain runs := by
  induction h generalizing r r' refusal with
  | pure => cases hr
  | refuse =>
    cases hr
    exact ⟨[], .refuse, .singleton _⟩
  | matchKind kind =>
    unfold Recognizer.matchKind at hr
    split at hr <;> cases hr
  | matchKeyword k =>
    unfold Recognizer.matchKeyword at hr
    split at hr <;> cases hr
  | report => cases hr
  | endOfInput =>
    unfold Grammar.endOfInput at hr
    split at hr
    · cases hr
    · rename_i hkind
      cases hr
      exact ⟨[], .endOfInput hkind, .singleton _⟩
  | bind hbody _ ih ihf =>
    rcases bind_eq_refused_iff.1 hr with hr | ⟨a, r₁, hok, hr⟩
    · obtain ⟨names, hraises, hchain⟩ := ih hr
      exact ⟨names, .first hraises, hchain⟩
    · obtain ⟨names, hraises, hchain⟩ := ihf a hr
      exact ⟨names, .later hbody.blind hok hraises, hchain⟩
  | cut _ ih =>
    obtain ⟨inner, hinner, rfl⟩ := cut_eq_refused_iff.1 hr
    obtain ⟨names, hraises, hchain⟩ := ih hinner
    exact ⟨names, .cut hraises, hchain⟩
  | within hruns _ ih =>
    obtain ⟨r₁, hinner, -⟩ := within_eq_refused_iff.1 hr
    obtain ⟨names, hraises, hchain⟩ := ih hinner
    exact ⟨_ :: names, .within hraises, .cons_cons hruns hchain⟩
  | attempt hruns _ ih =>
    obtain ⟨error, rfl, hwithin⟩ := attempt_eq_refused_iff.1 hr
    obtain ⟨r₁, hinner, -⟩ := within_eq_refused_iff.1 hwithin
    obtain ⟨names, hraises, hchain⟩ := ih hinner
    exact ⟨_ :: names, .attempt hraises, .cons_cons hruns hchain⟩
  | otherwise hbody _ ih iho =>
    rcases otherwise_eq_refused_iff.1 hr with ⟨error, rfl, hfatal⟩ | ⟨error, r₁, hrefused, hother⟩
    · obtain ⟨names, hraises, hchain⟩ := ih hfatal
      exact ⟨names, .kept hraises, hchain⟩
    · obtain ⟨names, hraises, hchain⟩ := iho hother
      exact ⟨names, .instead hbody.blind hrefused hraises, hchain⟩
  | @repeatWhile owner step hstep ih =>
    -- the rounds before the last one leave fewer tokens each
    induction hn : r.pending using Nat.strongRecOn generalizing r with
    | ind n rounds =>
      subst hn
      rcases repeatWhile_eq_refused_iff.1 hr with hr | ⟨r₁, hok, hlt, hr⟩
      · obtain ⟨names, hraises, hchain⟩ := ih hr
        exact ⟨names, .round hraises, hchain⟩
      · obtain ⟨names, hraises, hchain⟩ := rounds _ hlt hr rfl
        exact ⟨names, .again hstep.blind hok hlt hraises, hchain⟩

end Recog

namespace Recognizer

open Recog

/-- The productions open are the same behind a computation as before it, whether it answers, refuses
recoverably or refuses for good. An error that escapes from it was raised by a step of it, and has
for its path the productions that were open when it began, and then those around that step, and no
others.

So it is with the verdict: every error but the refusal to judge has a path that leads from the
program to where it was raised, each production on it running the next one; and where no production
was open before, the path is this one. -/
theorem path_of_refused :
    (∀ {α : Type} (body : Recog α), Blind body → ∀ r, Restores body r ∧
      (∀ refusal r', body r = .error (.refused refusal) r' →
        ∃ names, Raises body r names refusal ∧
          refusal.error.path = some (r.nesting.reverse ++ names) ∧
          ∀ names', Raises body r names' refusal → names' = names) ∧
      ∀ names refusal, Raises body r names refusal →
        ∃ r', body r = .error (.refused refusal) r') ∧
    ∀ r refusal r', recognize r = .error (.refused refusal) r' →
      refusal.error.located.error ≠ .poisoned →
      ∃ names, refusal.error.path = some (r.nesting.reverse ++ "program" :: names) ∧
        ("program" :: names).IsChain Grammar.Includes ∧
        ∀ tokens label verbose, Reached (ofTokens tokens label verbose) r →
          refusal.error.path = some ("program" :: names) := by
  constructor
  · intro α body hblind r
    refine ⟨hblind.restores r, fun refusal r' hr => ?_, fun _ _ => Raises.exists_refused⟩
    obtain ⟨names, hraises, -⟩ := (hblind.composed "").exists_raises hr
    exact ⟨names, hraises, hraises.path, fun _ => hraises.unique⟩
  · intro r refusal r' hr hjudged
    unfold recognize at hr
    split at hr
    · cases hr
      exact absurd rfl hjudged
    · cases hw : within "program" Grammar.program (r.note .debug (.recognizing r.file)) with
      | ok a r₁ =>
        rw [hw] at hr
        cases hr
      | error stop r₁ =>
        rw [hw] at hr
        cases stop with
        | misuse => cases hr
        | refused inner =>
          cases hr
          obtain ⟨r₂, hprogram, -⟩ := within_eq_refused_iff.1 hw
          obtain ⟨names, hraises, hchain⟩ := composed_program.exists_raises hprogram
          have hpath : refusal.error.path = some (r.nesting.reverse ++ "program" :: names) :=
            hraises.within.path
          refine ⟨names, hpath, hchain, fun tokens label verbose hreached => ?_⟩
          rw [hpath, hreached.nesting]
          rfl

/-- A production in which one is tried in vain and one goes through, before a number is missing two
productions deep; and a program with a routine in whose block a statement is none. -/
theorem path_of_refused_siblings :
    let script : Script := .attempt "tried" (.refuse "first" false .done) <|
      .within "passed" .done false <| .within "outer" (.matchKind .identifier <|
        .attempt "inner" (.expect .number "number" true .done) .done) false .done
    let opened : Recognizer :=
      { ofTokens [⟨.identifier "x", 1⟩, .eof 1] "a.sir" false with nesting := ["open"] }
    let error : SyntaxError :=
      ⟨⟨.expected "number" (.eof 1), "a.sir", 0⟩, some ["open", "outer", "inner"]⟩
    let tokens : TokenStream := [⟨.keyword .routineKw, 1⟩, ⟨.identifier "f", 1⟩,
      ⟨.punctuation .lParen, 1⟩, ⟨.punctuation .rParen, 1⟩, ⟨.punctuation .lBrace, 1⟩,
      ⟨.identifier "a", 1⟩, .eof 1]
    let names := ["declaration", "routine_declaration", "block", "statement_list", "statement",
      "label_declaration"]
    (∃ r, script.run opened = .error (.refused (.fatal error)) r ∧ r.nesting = ["open"] ∧
      Raises script.run opened ["outer", "inner"] (.fatal error)) ∧
    ∃ fault r, recognize (ofTokens tokens "a.sir" false) =
        .error (.refused (.fatal ⟨fault, some ("program" :: names)⟩)) r ∧
      ("program" :: names).IsChain Grammar.Includes := by
  intro script opened error tokens names
  constructor
  · have run : (match script.run opened with
        | .error stop _ => some stop
        | .ok _ _ => none) = some (.refused (.fatal error)) := by
      decide +kernel
    split at run
    · rename_i stop r hr
      obtain rfl := Option.some.inj run
      obtain ⟨restores, raised, -⟩ := path_of_refused.1 script.run (blind_run script) opened
      obtain ⟨names, raises, path, -⟩ := raised _ _ hr
      have paths : ["open"] ++ ["outer", "inner"] = ["open"] ++ names := Option.some.inj path
      obtain rfl := List.append_cancel_left paths
      exact ⟨r, hr, restores.of_refused hr, raises⟩
    · cases run
  · let fault : Located SyntaxFault :=
      ⟨.expected "':' to end label declaration" (.eof 1), "a.sir", 1⟩
    have run : (match recognize (ofTokens tokens "a.sir" false) with
        | .error stop _ => some stop
        | .ok _ _ => none) = some (.refused (.fatal ⟨fault, some ("program" :: names)⟩)) := by
      decide +kernel
    split at run
    · rename_i stop r hr
      obtain rfl := Option.some.inj run
      obtain ⟨names', -, chain, path⟩ := path_of_refused.2 _ _ _ hr nofun
      obtain ⟨-, rfl⟩ := List.cons.inj (Option.some.inj (path tokens "a.sir" false .start))
      exact ⟨fault, r, hr, chain⟩
    · cases run

end Recognizer
end FrontEnd
