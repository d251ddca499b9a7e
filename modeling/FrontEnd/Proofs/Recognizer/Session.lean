import FrontEnd.Proofs.Recognizer.Blind
import Mathlib.Data.List.GetD

/-!
# FrontEnd.Proofs.Recognizer.Session

Where a recognizer stands, whatever it was asked for.

* `TokenStream.endless` — the tokens with ends of input behind them, without end.
* `Recognizer.StandsAt` — the first `k` of them are consumed, the next one is the lookahead, and the
  line is that behind the last match of a keyword. A step keeps it, with the same `k` or the next
  (`Recognizer.StandsAt.step`).
* `Recog.Operates.recognize` — the verdict is made of operations, too.
* `Recognizer.Reached` — what operations, one after the other, make of a recognizer, as long as
  none is misused. All answers of a session are such (`Session.reached_of_mem_run`).
* `Recognizer.standsAt_of_reached` — a recognizer reached from a fresh one stands somewhere in its
  tokens, and no production is open.
-/

namespace FrontEnd

namespace TokenStream

/-- The line of the last token, 0 if there is none. -/
def lastLine (tokens : TokenStream) : Nat := (tokens.getLastD (Token.eof 0)).line

/-- The tokens in order, and behind them an end of input on the line of the last one, again and
again. -/
def endless (tokens : TokenStream) (i : Nat) : Token := tokens.getD i (Token.eof tokens.lastLine)

variable {tokens : TokenStream} {k : Nat}

theorem endless_of_length_le (h : tokens.length ≤ k) :
    tokens.endless k = Token.eof tokens.lastLine := by
  rw [endless, List.getD_eq_default _ _ h]

theorem line_endless_of_length_le_succ (h : tokens.length ≤ k + 1) :
    (tokens.endless k).line = tokens.lastLine := by
  by_cases hk : k < tokens.length
  · have hlast : k = tokens.length - 1 := by omega
    have hne : tokens ≠ [] := by
      rintro rfl
      simp at hk
    rw [endless, List.getD_eq_getElem _ _ hk, lastLine, List.getLastD_eq_getLast?,
      List.getLast?_eq_getElem?, ← hlast, List.getElem?_eq_getElem hk, Option.getD_some]
  · rw [endless_of_length_le (by omega)]
    rfl

/-- Behind a token comes the next one, or an end of input on its line. -/
theorem headD_drop : (tokens.drop (k + 1)).headD (Token.eof (tokens.endless k).line) =
    tokens.endless (k + 1) := by
  rw [List.headD_eq_head?_getD, List.head?_drop]
  by_cases h : k + 1 < tokens.length
  · rw [List.getElem?_eq_getElem h, Option.getD_some, endless, List.getD_eq_getElem _ _ h]
  · rw [List.getElem?_eq_none (by omega), Option.getD_none,
      line_endless_of_length_le_succ (by omega), endless_of_length_le (k := k + 1) (by omega)]

end TokenStream

namespace Recognizer

/-- The recognizer has consumed the first `k` of the tokens and of the ends of input behind them.
Its line is 0 as long as none of these was matched as a keyword; else it is that of the token
behind the last one that was. -/
structure StandsAt (tokens : TokenStream) (k : Nat) (r : Recognizer) : Prop where
  matched : r.matched.toList = (List.range k).map tokens.endless
  lookahead : r.lookahead = tokens.endless k
  rest : r.rest = tokens.drop (k + 1)
  byKeyword : r.byKeyword.length = k
  line_of_none : true ∉ r.byKeyword → r.line = 0
  line_of_last : ∀ i, r.byKeyword[i]? = some true → (∀ j, i < j → r.byKeyword[j]? ≠ some true) →
    r.line = (tokens.endless (i + 1)).line

namespace StandsAt

variable {tokens : TokenStream} {k : Nat} {r : Recognizer}

theorem ofTokens (tokens : TokenStream) (label : String) (verbose : Bool) :
    StandsAt tokens 0 (ofTokens tokens label verbose) where
  matched := rfl
  lookahead := by cases tokens <;> rfl
  rest := by cases tokens <;> rfl
  byKeyword := rfl
  line_of_none := fun _ => rfl
  line_of_last := fun i h => by simp [Recognizer.byKeyword, Recognizer.ofTokens] at h

theorem matchedText (h : StandsAt tokens k r) :
    r.matchedText = String.join ((List.range k).map fun i => (tokens.endless i).text ++ " ") := by
  rw [Recognizer.matchedText, h.matched, List.map_map]
  rfl

/-- A match moves on by one token. -/
theorem consume (event : RecognizerEvent) {keyword : Bool} (h : StandsAt tokens k r)
    (he : event.byKeyword? = some keyword) :
    (r.announce event).consume.matched.toList = (List.range (k + 1)).map tokens.endless ∧
      (r.announce event).consume.lookahead = tokens.endless (k + 1) ∧
      (r.announce event).consume.rest = tokens.drop (k + 2) ∧
      (r.announce event).consume.byKeyword = r.byKeyword ++ [keyword] := by
  refine ⟨?_, ?_, ?_, ?_⟩
  · rw [List.range_succ, List.map_append, ← h.matched, List.map_singleton, ← h.lookahead]
    exact Array.toList_push
  · exact (congrArg₂ (fun rest l => rest.headD (Token.eof (Token.line l))) h.rest h.lookahead).trans
      TokenStream.headD_drop
  · exact (congrArg List.tail h.rest).trans List.tail_drop
  · exact byKeyword_announce.trans (by rw [he]; rfl)

theorem token (h : StandsAt tokens k r) :
    StandsAt tokens (k + 1) (r.announce (.matchedToken r.lookahead)).consume := by
  obtain ⟨matched, lookahead, rest, byKeyword⟩ :=
    h.consume (.matchedToken r.lookahead) rfl
  refine ⟨matched, lookahead, rest, ?_, fun hnone => ?_, fun i hi hlast => ?_⟩
  · rw [byKeyword, List.length_append, h.byKeyword, List.length_singleton]
  · rw [byKeyword] at hnone
    exact h.line_of_none fun hmem => hnone (List.mem_append_left _ hmem)
  · rw [byKeyword] at hi hlast
    have hlt : i < r.byKeyword.length := by
      by_contra hge
      rw [List.getElem?_append_right (by omega), List.getElem?_singleton] at hi
      split at hi <;> cases hi
    refine h.line_of_last i (by rwa [List.getElem?_append_left hlt] at hi) fun j hj hjt => ?_
    have hjl := List.getElem?_eq_some_iff.1 hjt |>.1
    exact hlast j hj (by rwa [List.getElem?_append_left hjl])

/-- A keyword takes the line on to the token behind it. -/
theorem keyword {keyword : Keyword} (h : StandsAt tokens k r) :
    StandsAt tokens (k + 1) (r.announce (.matchedKeyword keyword)).consume.track := by
  obtain ⟨matched, lookahead, rest, byKeyword⟩ :=
    h.consume (.matchedKeyword keyword) rfl
  have hlast : ((r.announce (.matchedKeyword keyword)).consume.byKeyword)[k]? = some true := by
    rw [byKeyword, List.getElem?_append_right (Nat.le_of_eq h.byKeyword), h.byKeyword, Nat.sub_self]
    rfl
  refine ⟨matched, lookahead, rest, ?_, fun hnone => ?_, fun i hi hi' => ?_⟩
  · exact (congrArg List.length byKeyword).trans (by rw [List.length_append, h.byKeyword]; rfl)
  · exact absurd (List.mem_of_getElem? hlast) hnone
  · have hik : i = k := by
      have hlt : i < k + 1 := by
        have := (List.getElem?_eq_some_iff.1 hi).1
        rwa [show (r.announce (.matchedKeyword keyword)).consume.track.byKeyword = _ from byKeyword,
          List.length_append, h.byKeyword] at this
      by_contra hne
      exact hi' k (by omega) hlast
    rw [hik]
    exact congrArg Token.line lookahead

/-- A step stays where it is or goes on to the next token. -/
theorem step {judging : Prop} {r' : Recognizer} (h : StandsAt tokens k r)
    (hstep : Step judging r r') : ∃ k', StandsAt tokens k' r' := by
  cases hstep with
  | @note level event he =>
    have same : (r.note level event).byKeyword = r.byKeyword :=
      byKeyword_note.trans (by rw [he]; exact List.append_nil _)
    refine ⟨k, h.matched, h.lookahead, h.rest, ?_, ?_, ?_⟩
    · rw [same]
      exact h.byKeyword
    · rw [same]
      exact h.line_of_none
    · rw [same]
      exact h.line_of_last
  | token => exact ⟨k + 1, h.token⟩
  | keyword => exact ⟨k + 1, h.keyword⟩
  | nest | poison =>
    exact ⟨k, ⟨h.matched, h.lookahead, h.rest, h.byKeyword, h.line_of_none, h.line_of_last⟩⟩

theorem steps {judging : Prop} {r' : Recognizer} (h : StandsAt tokens k r)
    (hsteps : Steps judging r r') : ∃ k', StandsAt tokens k' r' := by
  induction hsteps with
  | refl => exact ⟨k, h⟩
  | tail _ hstep ih =>
    obtain ⟨_, ih⟩ := ih
    exact ih.step hstep

end StandsAt

end Recognizer

namespace Recog

open Recognizer Recognizer.Grammar

/-- What a verdict does in the end. -/
def judged : Except Refusal Unit → Recog Unit
  | .ok () => fun r => .ok () (r.note .debug (.accepted r.file))
  | .error refusal => fun r =>
    .error (.refused refusal) { r.note .debug (.rejected r.file refusal) with poisoned := true }

/-- What a verdict does, for a recognizer seen at the beginning. -/
def judges (r : Recognizer) : Recog Unit :=
  if r.poisoned then stop (.fatal ⟨⟨.poisoned, r.file, r.line⟩, none⟩)
  else do
    modify (note .debug (.recognizing r.file))
    judged (← outcome (within "program" program))

theorem recognize_eq_judges {r : Recognizer} : recognize r = judges r r := by
  unfold recognize judges
  by_cases hp : r.poisoned = true
  · rw [if_pos hp, if_pos hp]
    rfl
  · rw [if_neg hp, if_neg hp, modify_bind]
    cases hs : within "program" program (r.note .debug (.recognizing r.file)) with
    | ok a r' => rw [bind_of_ok (outcome_of_ok hs)]; rfl
    | error stop r' => cases stop with
      | refused refusal => rw [bind_of_ok (outcome_of_refused hs)]; rfl
      | misuse => rw [bind_of_error (outcome_of_misuse hs)]

theorem Operates.judged {judging : Prop} (h : judging) (verdict : Except Refusal Unit) :
    Operates judging (judged verdict) := by
  cases verdict with
  | ok =>
    exact .depending (fun r => modify (Recognizer.note .debug (.accepted r.file)))
      fun _ => .note _ rfl
  | error refusal =>
    exact .depending (fun r => do
        modify (Recognizer.note .debug (.rejected r.file refusal))
        modify fun r => { r with poisoned := true }
        Recog.stop refusal)
      fun _ => .bind (.note _ rfl) fun _ => .bind (.poison h) fun _ => .stop _

theorem Operates.recognize {judging : Prop} (h : judging) : Operates judging recognize := by
  rw [show Recognizer.recognize = fun r => judges r r from funext fun _ => recognize_eq_judges]
  refine .depending _ fun r => ?_
  unfold judges
  split
  · exact .stop _
  · exact .bind (.note _ rfl) fun _ =>
      .bind (.outcome (.within _ blind_program.operates)) (.judged h)

end Recog

namespace Recognizer

open Recog

/-- What operations make of a recognizer, one after the other, each answering or refusing. A
computation that goes on where an attempt would be a misuse is one, too: it asks for the `outcome`
of the production. -/
inductive Reached (start : Recognizer) : Recognizer → Prop
  | start : Reached start start
  | answered {α : Type} {body : Recog α} {a : α} {r r' : Recognizer} :
    Reached start r → Operates True body → body r = .ok a r' → Reached start r'
  | refused {α : Type} {body : Recog α} {refusal : Refusal} {r r' : Recognizer} :
    Reached start r → Operates True body → body r = .error (.refused refusal) r' → Reached start r'

variable {start r : Recognizer}

theorem Reached.steps (h : Reached start r) : Steps True start r := by
  induction h with
  | start => exact .refl
  | answered _ hbody hr ih => exact ih.trans (leaves_of_ok hr ▸ hbody.steps _)
  | refused _ hbody hr ih => exact ih.trans (leaves_of_error hr ▸ hbody.steps _)

theorem Reached.nesting (h : Reached start r) : r.nesting = start.nesting := by
  induction h with
  | start => rfl
  | answered _ hbody hr ih => exact ((hbody.restores _).of_ok hr).trans ih
  | refused _ hbody hr ih => exact ((hbody.restores _).of_refused hr).trans ih

end Recognizer

namespace Session

open Recognizer Recog

variable {start r : Recognizer}

theorem reached_of_answer {α : Type} {value : α → Answer} {refused : Refusal → Answer}
    {body : Recog α} (h : Reached start r) (hbody : Operates True body)
    (hm : (Action.answer value refused body r).1 ≠ .misuse) :
    Reached start (Action.answer value refused body r).2 := by
  unfold Action.answer at hm ⊢
  cases hr : body r with
  | ok a r' => exact .answered h hbody hr
  | error stop r' => cases stop with
    | refused refusal => exact .refused h hbody hr
    | misuse =>
      rw [hr] at hm
      exact absurd rfl hm

theorem reached_of_perform {action : Action} (h : Reached start r)
    (hm : (action.perform r).1 ≠ .misuse) : Reached start (action.perform r).2 := by
  cases action with
  | peek => exact h
  | refusalOf => exact h
  | matchKind kind => exact reached_of_answer h (.matchKind kind) hm
  | matchKeyword k => exact reached_of_answer h (.matchKeyword k) hm
  | expect kind what => exact reached_of_answer h (.expect kind what) hm
  | expectKeyword k what => exact reached_of_answer h (.expectKeyword k what) hm
  | within name body => exact reached_of_answer h (.within name (blind_run body).operates) hm
  | attempt name body => exact reached_of_answer h (.attempt name (blind_run body).operates) hm
  | recognize => exact reached_of_answer h (.recognize trivial) hm

/-- Each answer of a session but a misuse leaves a recognizer that is reached. -/
theorem reached_of_mem_run {actions : List Action} {answer : Answer} {r' : Recognizer}
    (h : Reached start r) (hmem : (answer, r') ∈ run r actions) (hm : answer ≠ .misuse) :
    Reached start r' := by
  induction actions generalizing r with
  | nil => cases hmem
  | cons action actions ih =>
    unfold run at hmem
    split at hmem
    · obtain ⟨rfl, rfl⟩ := Prod.mk.inj (List.mem_singleton.1 hmem)
      exact absurd rfl hm
    · rename_i answer₁ r₁ hne hp
      have hfirst : (action.perform r).1 ≠ .misuse := by
        rw [hp]
        exact hne
      have hreached : Reached start r₁ := by
        have := reached_of_perform h hfirst
        rwa [hp] at this
      rcases List.mem_cons.1 hmem with heq | hmem
      · obtain ⟨rfl, rfl⟩ := Prod.mk.inj heq
        exact hreached
      · exact ih hreached hmem

end Session

namespace Recognizer

/-- Operations lose, repeat and reorder nothing. A recognizer that they reach from a fresh one has
consumed the first so many of the tokens and of the ends of input behind them, looks at the next
one and holds what is left; its matched text is that of the tokens consumed, its line the one
behind the last keyword matched, and no production is open. -/
theorem standsAt_of_reached {tokens : TokenStream} {label : String} {verbose : Bool}
    {r : Recognizer} (h : Reached (ofTokens tokens label verbose) r) :
    ∃ k, StandsAt tokens k r ∧
      r.matchedText = String.join ((List.range k).map fun i => (tokens.endless i).text ++ " ") ∧
      r.nesting = [] := by
  obtain ⟨k, hk⟩ := (StandsAt.ofTokens tokens label verbose).steps h.steps
  exact ⟨k, hk, hk.matchedText, h.nesting⟩

/-- A session with productions inside productions, a refusal, and two ends of input consumed that
no stream holds. -/
theorem standsAt_of_reached_past_end :
    let tokens : TokenStream := [⟨.keyword .staticKw, 1⟩, ⟨.keyword .varKw, 1⟩,
      ⟨.identifier "x", 3⟩, ⟨.punctuation .semicolon, 4⟩]
    let declared : Script :=
      .expectKeyword .varKw "'var'" false (.within "name" (.expect .identifier "name" true .done)
        true .done)
    let actions : List Action :=
      [.within "modified" (.matchKeyword .staticKw (.attempt "variable" declared .done)),
        .expect .number "number", .matchKind .semicolon, .matchKind .eof, .matchKind .eof]
    ∃ r, (Session.run (ofTokens tokens "a.sir" false) actions).getLast? = some (.matched true, r) ∧
      r.matchedText = "static var x ;   " ∧ r.lookahead = .eof 4 ∧ r.line = 3 ∧
      StandsAt tokens 6 r ∧ r.nesting = [] := by
  intro tokens declared actions
  obtain ⟨r, hlast⟩ : ∃ r, (Session.run (ofTokens tokens "a.sir" false) actions).getLast? =
      some (.matched true, r) := ⟨_, rfl⟩
  have hreached : Reached (ofTokens tokens "a.sir" false) r :=
    Session.reached_of_mem_run .start (List.mem_of_getLast? hlast) (by decide)
  obtain ⟨k, hk, htext, hnesting⟩ := standsAt_of_reached hreached
  have hrun : ((Session.run (ofTokens tokens "a.sir" false) actions).getLast?.map
      fun entry => (entry.2.byKeyword, entry.2.line)) =
        some ([true, true, false, false, false, false], 3) := by decide
  rw [hlast] at hrun
  obtain ⟨hbyKeyword, hline⟩ := Prod.mk.inj (Option.some.inj hrun)
  have hsix : k = 6 := by rw [← hk.byKeyword, hbyKeyword]; rfl
  rw [hsix] at hk htext
  exact ⟨r, hlast, htext.trans (by decide), hk.lookahead.trans (by decide), hline, hk, hnesting⟩

end Recognizer
end FrontEnd
