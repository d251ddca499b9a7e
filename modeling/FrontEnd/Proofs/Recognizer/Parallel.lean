import FrontEnd.Proofs.Recognizer.Blind
import FrontEnd.Proofs.Recognizer.Follows

/-!
# FrontEnd.Proofs.Recognizer.Parallel

The same computation on two recognizers, side by side.

* `Complaint` — what a refusal says, up to the token it says it of.
* `Recog.Alike` — two ends of one kind: the same value, or refusals with the same complaint and
  the same productions open, each about the lookahead of its own recognizer.
* `Recog.Simulation` — a relation on recognizers that every operation keeps, until the first one of
  them is `spent`.
* `Recog.Blind.alike` — a blind computation keeps it, too, and ends alike on both, unless the first
  recognizer is spent in the end.
-/

namespace FrontEnd

theorem Token.kind_eq_of_terminal_eq {a b : Token} (h : a.terminal = b.terminal) :
    a.kind = b.kind := by
  unfold terminal at h
  unfold kind
  split at h <;> split at h
  · rename_i ha _ _ hb
    rw [ha, hb]
    rfl
  · cases h
  · cases h
  · exact Terminal.kind.inj h

theorem Token.isKeyword_eq_of_terminal_eq {a b : Token} (h : a.terminal = b.terminal)
    (k : Keyword) : a.isKeyword k = b.isKeyword k := by
  rw [Bool.eq_iff_iff, isKeyword_iff_terminal, isKeyword_iff_terminal, h]

inductive Complaint where
  | expected (what : String)
  | expectedEnd

def Complaint.about (found : Token) : Complaint → SyntaxFault
  | expected what => .expected what found
  | expectedEnd => .expectedEnd found

/-- The complaint about the lookahead, with these productions open. -/
def Recognizer.complain (r : Recognizer) (complaint : Complaint) (path : List String) :
    SyntaxError :=
  ⟨⟨complaint.about r.lookahead, r.file, r.line⟩, some path⟩

namespace Recog

open Recognizer Recognizer.Grammar

section Alike

variable {rel : Recognizer → Recognizer → Prop} {α β : Type}

inductive Alike (rel : Recognizer → Recognizer → Prop) {α : Type} :
    EStateM.Result Stop Recognizer α → EStateM.Result Stop Recognizer α → Prop
  | ok {r s : Recognizer} (a : α) : rel r s → Alike rel (.ok a r) (.ok a s)
  | recoverable {r s : Recognizer} (complaint : Complaint) (path : List String) : rel r s →
    Alike rel (.error (.refused (.recoverable (r.complain complaint path))) r)
      (.error (.refused (.recoverable (s.complain complaint path))) s)
  | fatal {r s : Recognizer} (complaint : Complaint) (path : List String) : rel r s →
    Alike rel (.error (.refused (.fatal (r.complain complaint path))) r)
      (.error (.refused (.fatal (s.complain complaint path))) s)
  | misuse {r s : Recognizer} : rel r s → Alike rel (.error .misuse r) (.error .misuse s)

theorem Alike.of_ok {a : α} {r : Recognizer} {result : EStateM.Result Stop Recognizer α}
    (h : Alike rel (.ok a r) result) : ∃ s, result = .ok a s ∧ rel r s := by
  cases h with
  | ok a h => exact ⟨_, rfl, h⟩

theorem Alike.of_recoverable {e : SyntaxError} {r : Recognizer}
    {result : EStateM.Result Stop Recognizer α}
    (h : Alike rel (.error (.refused (.recoverable e)) r) result) :
    ∃ e' s, result = .error (.refused (.recoverable e')) s ∧ rel r s := by
  cases h with
  | recoverable complaint path h => exact ⟨_, _, rfl, h⟩

variable {body body' : Recog α} {r s : Recognizer}

theorem Alike.bind {f f' : α → Recog β} (h : Alike rel (body r) (body' s))
    (hf : ∀ a r' s', body r = .ok a r' → rel r' s' → Alike rel (f a r') (f' a s')) :
    Alike rel ((body >>= f) r) ((body' >>= f') s) := by
  generalize hr : body r = x at h
  generalize hs : body' s = y at h
  cases h with
  | ok a h =>
    rw [bind_of_ok hr, bind_of_ok hs]
    exact hf a _ _ hr h
  | recoverable complaint path h =>
    rw [bind_of_error hr, bind_of_error hs]
    exact .recoverable complaint path h
  | fatal complaint path h =>
    rw [bind_of_error hr, bind_of_error hs]
    exact .fatal complaint path h
  | misuse h =>
    rw [bind_of_error hr, bind_of_error hs]
    exact .misuse h

theorem Alike.cut (h : Alike rel (body r) (body' s)) : Alike rel (cut body r) (cut body' s) := by
  unfold Recognizer.cut
  generalize body r = x at h ⊢
  generalize body' s = y at h ⊢
  cases h with
  | ok a h => exact .ok a h
  | recoverable complaint path h => exact .fatal complaint path h
  | fatal complaint path h => exact .fatal complaint path h
  | misuse h => exact .misuse h

/-- Closing a production leaves what a refusal complains of. -/
theorem Alike.within {name : String} (h : Alike rel (body (r.enter name)) (body' (s.enter name)))
    (hleave : ∀ {r s}, rel r s → rel (r.leave name) (s.leave name)) :
    Alike rel (within name body r) (within name body' s) := by
  unfold Recognizer.within
  generalize body (r.enter name) = x at h ⊢
  generalize body' (s.enter name) = y at h ⊢
  cases h with
  | ok a h => exact .ok a (hleave h)
  | recoverable complaint path h => exact .recoverable complaint path (hleave h)
  | fatal complaint path h => exact .fatal complaint path (hleave h)
  | misuse h => exact .misuse h

theorem Alike.attempt {name : String} {body body' : Recog Unit}
    (h : Alike rel (Recognizer.within name body r) (Recognizer.within name body' s))
    (hsize : ∀ {r' s'}, rel r' s' →
      (r'.matched.size = r.matched.size ↔ s'.matched.size = s.matched.size)) :
    Alike rel (attempt name body r) (attempt name body' s) := by
  unfold Recognizer.attempt
  generalize Recognizer.within name body r = x at h ⊢
  generalize Recognizer.within name body' s = y at h ⊢
  cases h with
  | ok a h => exact .ok true h
  | @recoverable r' s' complaint path h =>
    dsimp only
    by_cases hr : r'.matched.size = r.matched.size
    · rw [if_pos hr, if_pos ((hsize h).1 hr)]
      exact .ok false h
    · rw [if_neg hr, if_neg (mt (hsize h).2 hr)]
      exact .misuse h
  | fatal complaint path h => exact .fatal complaint path h
  | misuse h => exact .misuse h

theorem Alike.otherwise {other other' : Recog α} (h : Alike rel (body r) (body' s))
    (ho : ∀ e r' s', body r = .error (.refused (.recoverable e)) r' → rel r' s' →
      Alike rel (other r') (other' s')) :
    Alike rel (otherwise body other r) (otherwise body' other' s) := by
  unfold Recog.otherwise
  generalize hr : body r = x at h ⊢
  generalize body' s = y at h ⊢
  cases h with
  | ok a h => exact .ok a h
  | recoverable complaint path h => exact ho _ _ _ hr h
  | fatal complaint path h => exact .fatal complaint path h
  | misuse h => exact .misuse h

end Alike

/-- The operations keep the relation and answer alike, as long as the first recognizer is not
`spent`. A token may be taken to get there, but not for a keyword, which looks at the next line. -/
structure Simulation (rel : Recognizer → Recognizer → Prop) (spent : Recognizer → Prop) : Prop where
  nesting {r s : Recognizer} : rel r s → s.nesting = r.nesting
  terminal {r s : Recognizer} : rel r s → ¬spent r → s.lookahead.terminal = r.lookahead.terminal
  takeToken {r s : Recognizer} : rel r s → ¬spent r →
    rel (r.announce (.matchedToken r.lookahead)).consume
      (s.announce (.matchedToken s.lookahead)).consume
  takeKeyword {r s : Recognizer} (k : Keyword) : rel r s →
    ¬spent (r.announce (.matchedKeyword k)).consume.track →
    rel (r.announce (.matchedKeyword k)).consume.track
      (s.announce (.matchedKeyword k)).consume.track
  rejectToken {r s : Recognizer} (kind : TokenKind) : rel r s →
    rel (r.announce (.rejectedToken r.lookahead kind))
      (s.announce (.rejectedToken s.lookahead kind))
  rejectKeyword {r s : Recognizer} (k : Keyword) : rel r s →
    rel (r.announce (.rejectedKeyword r.lookahead k)) (s.announce (.rejectedKeyword s.lookahead k))
  report {r s : Recognizer} (storage : Storage) (what : Declared) : rel r s →
    rel (r.announce (.declared r.file r.line storage what))
      (s.announce (.declared s.file s.line storage what))
  enter {r s : Recognizer} (name : String) : rel r s → rel (r.enter name) (s.enter name)
  leave {r s : Recognizer} (name : String) : rel r s → rel (r.leave name) (s.leave name)
  size {r s r' s' : Recognizer} : rel r s → rel r' s' →
    (r'.matched.size = r.matched.size ↔ s'.matched.size = s.matched.size)
  pending {r s r' s' : Recognizer} : rel r s → rel r' s' → ¬spent r → ¬spent r' →
    (r'.pending < r.pending ↔ s'.pending < s.pending)
  spent {r r' : Recognizer} : spent r → Step False r r' → spent r'

namespace Simulation

variable {rel : Recognizer → Recognizer → Prop} {spent : Recognizer → Prop} {r r' s : Recognizer}

theorem spent_steps (sim : Simulation rel spent) (h : spent r) (hsteps : Steps False r r') :
    spent r' := by
  induction hsteps with
  | refl => exact h
  | tail _ hstep ih => exact sim.spent ih hstep

theorem refuse (sim : Simulation rel spent) {α : Type} (what : String) (h : rel r s) :
    Alike rel ((refuse what : Recog α) r) ((refuse what : Recog α) s) := by
  have : (Recognizer.refuse what : Recog α) s = .error (.refused (.recoverable
      (s.complain (.expected what) r.nesting.reverse))) s := by
    rw [← sim.nesting h]
    rfl
  rw [this]
  exact .recoverable (.expected what) _ h

theorem matchKind (sim : Simulation rel spent) (kind : TokenKind) (h : rel r s) (ho : ¬spent r) :
    Alike rel (matchKind kind r) (matchKind kind s) := by
  unfold Recognizer.matchKind
  rw [Token.kind_eq_of_terminal_eq (sim.terminal h ho)]
  split
  · exact .ok true (sim.takeToken h ho)
  · exact .ok false (sim.rejectToken kind h)

theorem matchKeyword (sim : Simulation rel spent) (k : Keyword) (h : rel r s)
    (ho : ¬spent (leaves (matchKeyword k) r)) :
    Alike rel (matchKeyword k r) (matchKeyword k s) := by
  have hr : ¬spent r := fun hspent => ho (sim.spent_steps hspent ((Blind.matchKeyword k).steps r))
  unfold leaves at ho
  unfold Recognizer.matchKeyword at ho ⊢
  rw [Token.isKeyword_eq_of_terminal_eq (sim.terminal h hr)]
  split
  · rename_i hk
    rw [if_pos hk] at ho
    exact .ok true (sim.takeKeyword k h ho)
  · exact .ok false (sim.rejectKeyword k h)

theorem endOfInput (sim : Simulation rel spent) (h : rel r s) (ho : ¬spent r) :
    Alike rel (endOfInput r) (endOfInput s) := by
  unfold Recognizer.Grammar.endOfInput
  rw [Token.kind_eq_of_terminal_eq (sim.terminal h ho)]
  split
  · exact .ok () h
  · have : s.syntaxError (.expectedEnd s.lookahead) =
        s.complain .expectedEnd r.nesting.reverse := by
      rw [← sim.nesting h]
      rfl
    rw [this]
    exact .fatal .expectedEnd _ h

/-- The second computation starts from where the first one was not spent, either. -/
theorem bind (sim : Simulation rel spent) {α β : Type} {body body' : Recog α} {f f' : α → Recog β}
    (hsteps : ∀ a r', Steps False r' (leaves (f a) r'))
    (h : ¬spent (leaves body r) → Alike rel (body r) (body' s))
    (hf : ∀ a r' s', body r = .ok a r' → rel r' s' → ¬spent (leaves (f a) r') →
      Alike rel (f a r') (f' a s'))
    (ho : ¬spent (leaves (body >>= f) r)) : Alike rel ((body >>= f) r) ((body' >>= f') s) := by
  have later {a : α} {r' : Recognizer} (hr : body r = .ok a r') : ¬spent (leaves (f a) r') := by
    rwa [leaves, bind_of_ok hr] at ho
  have first : ¬spent (leaves body r) := by
    cases hr : body r with
    | ok a r' =>
      rw [leaves_of_ok hr]
      exact fun hspent => later hr (sim.spent_steps hspent (hsteps a r'))
    | error stop r' =>
      rwa [leaves, bind_of_error hr, ← leaves_of_error hr] at ho
  exact (h first).bind fun a r' s' hr hrel => hf a r' s' hr hrel (later hr)

theorem within (sim : Simulation rel spent) {α : Type} {body : Recog α} (name : String)
    (hbody : ∀ {r s}, rel r s → ¬spent (leaves body r) → Alike rel (body r) (body s))
    (h : rel r s) (ho : ¬spent (leaves (within name body) r)) :
    Alike rel (within name body r) (within name body s) :=
  (hbody (sim.enter name h) fun hspent => ho (sim.spent_steps hspent steps_of_leaves_within)).within
    (sim.leave name)

theorem otherwise (sim : Simulation rel spent) {α : Type} {body other : Recog α}
    (hother : Blind other)
    (hbody : ¬spent (leaves body r) → Alike rel (body r) (body s))
    (ho' : ∀ {r s}, rel r s → ¬spent (leaves other r) → Alike rel (other r) (other s))
    (ho : ¬spent (leaves (otherwise body other) r)) :
    Alike rel (otherwise body other r) (otherwise body other s) := by
  have later {e : SyntaxError} {r' : Recognizer}
      (hr : body r = .error (.refused (.recoverable e)) r') : ¬spent (leaves other r') := by
    rwa [leaves, Recog.otherwise, hr] at ho
  have first : ¬spent (leaves body r) := by
    intro hspent
    cases hr : body r with
    | ok a r' =>
      rw [leaves, Recog.otherwise, hr] at ho
      exact ho (leaves_of_ok hr ▸ hspent)
    | error stop r' =>
      rw [leaves_of_error hr] at hspent
      cases stop with
      | refused refusal => cases refusal with
        | recoverable e => exact later hr (sim.spent_steps hspent (hother.steps r'))
        | fatal e =>
          rw [leaves, Recog.otherwise, hr] at ho
          exact ho hspent
      | misuse =>
        rw [leaves, Recog.otherwise, hr] at ho
        exact ho hspent
  exact (hbody first).otherwise fun e r' s' hr hrel => ho' hrel (later hr)

/-- The loop goes on for as many rounds on both. -/
theorem repeatWhile (sim : Simulation rel spent) {step : Recog Bool} (hb : Blind step)
    (hstep : ∀ {r s}, rel r s → ¬spent (leaves step r) → Alike rel (step r) (step s))
    (h : rel r s) (ho : ¬spent (leaves (repeatWhile step) r)) :
    Alike rel (repeatWhile step r) (repeatWhile step s) := by
  induction hn : r.pending using Nat.strongRecOn generalizing r s with
  | ind n ih =>
    subst hn
    have hr : ¬spent r := fun hspent => ho (sim.spent_steps hspent (hb.repeatWhile.steps r))
    have goesOn_steps (again : Bool) (r' : Recognizer) :
        Steps False r' (leaves (goesOn (Recognizer.repeatWhile step) r.pending again) r') :=
      (hb.repeatWhile.operates.goesOn _ _).steps r'
    rw [leaves, repeatWhile_eq] at ho
    rw [repeatWhile_eq, repeatWhile_eq]
    refine sim.bind goesOn_steps (hstep h) (fun again r' s' _ hrel ho' => ?_) ho
    have hr' : ¬spent r' := fun hspent => ho' (sim.spent_steps hspent (goesOn_steps again r'))
    have hlt := sim.pending h hrel hr hr'
    unfold leaves at ho'
    unfold goesOn at ho' ⊢
    by_cases hnext : again ∧ r'.pending < r.pending
    · rw [if_pos hnext] at ho' ⊢
      rw [if_pos ⟨hnext.1, hlt.1 hnext.2⟩]
      exact ih _ hnext.2 hrel ho' rfl
    · rw [if_neg hnext, if_neg fun hnext' => hnext ⟨hnext'.1, hlt.2 hnext'.2⟩]
      exact .ok () hrel

end Simulation

namespace Blind

variable {rel : Recognizer → Recognizer → Prop} {spent : Recognizer → Prop} {α : Type}
  {body : Recog α} {r s : Recognizer}

/-- The induction is on what the computation is made of. The first recognizer may be spent in the
end only, so it is not spent anywhere before. -/
theorem alike (sim : Simulation rel spent) (hb : Blind body) (h : rel r s)
    (ho : ¬spent (leaves body r)) : Alike rel (body r) (body s) := by
  have before {α : Type} {body : Recog α} {r : Recognizer} (hb : Blind body)
      (ho : ¬spent (leaves body r)) : ¬spent r :=
    fun hspent => ho (sim.spent_steps hspent (hb.steps r))
  induction hb generalizing r s with
  | pure a => exact .ok a h
  | refuse what => exact sim.refuse what h
  | matchKind kind => exact sim.matchKind kind h (before (.matchKind kind) ho)
  | matchKeyword k => exact sim.matchKeyword k h ho
  | report storage what => exact .ok () (sim.report storage what h)
  | endOfInput => exact sim.endOfInput h (before .endOfInput ho)
  | bind hb hf ih ihf =>
    exact sim.bind (fun a => (hf a).steps) (ih h) (fun a _ _ _ => ihf a) ho
  | cut _ ih =>
    rw [leaves_cut] at ho
    exact (ih h ho).cut
  | within name _ ih => exact sim.within name ih h ho
  | attempt name _ ih =>
    rw [leaves_attempt] at ho
    exact (sim.within name ih h ho).attempt (sim.size h)
  | otherwise _ hother ih iho => exact sim.otherwise hother (ih h) iho ho
  | repeatWhile hb ih => exact sim.repeatWhile hb ih h ho

theorem ok_of_ok (sim : Simulation rel spent) (hb : Blind body) {a : α} {r' : Recognizer}
    (h : rel r s) (he : body r = .ok a r') (ho : ¬spent r') :
    ∃ s', body s = .ok a s' ∧ rel r' s' := by
  have := hb.alike sim h (by rwa [leaves_of_ok he])
  rw [he] at this
  exact this.of_ok

theorem recoverable_of_recoverable (sim : Simulation rel spent) (hb : Blind body) {e : SyntaxError}
    {r' : Recognizer} (h : rel r s) (he : body r = .error (.refused (.recoverable e)) r')
    (ho : ¬spent r') : ∃ e' s', body s = .error (.refused (.recoverable e')) s' ∧ rel r' s' := by
  have := hb.alike sim h (by rwa [leaves_of_error he])
  rw [he] at this
  exact this.of_recoverable

end Blind

end Recog
end FrontEnd
