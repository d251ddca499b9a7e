import FrontEnd.Proofs.Recognizer.Asking

/-!
# FrontEnd.Proofs.Recognizer.Outline

How often the loops of a production go round, against what it consumes.

* `Recognizer.Grammar.Loop` — the loops of the grammar; `Loop.step` is what one of them repeats.
* `Recog.Outline spare body` — how the body is put together from the operations and from these
  loops. It is data, so that it can be asked for more than the result of the body:
  `Recog.Outline.rounds` — how many rounds all its loops complete.
* `Recog.Outline.accounts` — every round has a token of its own among those consumed, and an answer
  has the `spare` ones besides. No end of input is consumed.
* `Recog.Outline.repeatWhile_eq_of_step` — so a loop is one that only its step ends.
-/

namespace FrontEnd

/-- So many tokens at least lie between the two, none of them an end of input. -/
def Cursor.Advances (n : Nat) (c d : Cursor) : Prop := ∃ w, c.Reads w d ∧ n ≤ w.length

namespace Cursor.Advances

variable {m n : Nat} {c d e : Cursor}

theorem refl : Advances 0 c c := ⟨[], .refl, Nat.le_refl _⟩

theorem trans (h₁ : Advances m c d) (h₂ : Advances n d e) : Advances (m + n) c e := by
  obtain ⟨v, hv, hm⟩ := h₁
  obtain ⟨w, hw, hn⟩ := h₂
  exact ⟨v ++ w, hv.trans hw, by rw [List.length_append]; exact Nat.add_le_add hm hn⟩

theorem mono (h : Advances n c d) (hm : m ≤ n) : Advances m c d := by
  obtain ⟨w, hw, hn⟩ := h
  exact ⟨w, hw, Nat.le_trans hm hn⟩

theorem exists_reads (h : Advances n c d) (hn : 0 < n) : ∃ w, w ≠ [] ∧ c.Reads w d := by
  obtain ⟨w, hw, hl⟩ := h
  exact ⟨w, List.ne_nil_of_length_pos (Nat.lt_of_lt_of_le hn hl), hw⟩

theorem pending_lt (h : Advances n c d) (hn : 0 < n) : d.pending < c.pending := by
  obtain ⟨w, hne, hw⟩ := h.exists_reads hn
  exact hw.pending_lt hne

end Cursor.Advances

namespace Recognizer.Grammar

/-- The loops of the grammar, by the productions that they stand in. -/
inductive Loop where
  | program
  | statementList
  | idList
  | varDeclarationList
  deriving DecidableEq

/-- One round, which answers whether it was completed. -/
def Loop.step : Loop → Recog Bool
  | program => attempt "declaration" declaration
  | statementList => attempt "statement" statement
  | idList => do
    if ← matchKind .comma then
      cut (expect .identifier "identifier after ','")
      return true
    else return false
  | varDeclarationList => do
    if ← matchKind .comma then
      cut (within "var_declaration" varDeclaration)
      return true
    else return false

end Recognizer.Grammar

namespace Recog

open Recognizer Recognizer.Grammar

/-- How a computation is put together from the operations and the loops of the grammar. It never
asks for an end of input, and what it consumes has a token for each round of its loops and as many
`spare` ones as its answer says. -/
inductive Outline : {α : Type} → (α → Nat) → Recog α → Type 1
  | pure {α : Type} {spare : α → Nat} (a : α) : spare a = 0 → Outline spare (pure a)
  | refuse {α : Type} {spare : α → Nat} (what : String) : Outline spare (refuse what : Recog α)
  | matchKind {kind : TokenKind} : kind ≠ .eof → Outline Bool.toNat (matchKind kind)
  | matchKeyword (k : Keyword) : Outline Bool.toNat (matchKeyword k)
  | report (storage : Storage) (what : Declared) : Outline (fun _ => 0) (report storage what)
  | endOfInput : Outline (fun _ => 0) endOfInput
  /-- What the first part has to spare, the other parts need not have. -/
  | bind {α β : Type} {spare : α → Nat} {total : β → Nat} {body : Recog α} {f : α → Recog β} :
    Outline spare body → (∀ a, Outline (fun b => total b - spare a) (f a)) →
    Outline total (body >>= f)
  | cut {α : Type} {spare : α → Nat} {body : Recog α} : Outline spare body →
    Outline spare (cut body)
  | within {α : Type} {spare : α → Nat} {body : Recog α} (name : String) : Outline spare body →
    Outline spare (within name body)
  | attempt {body : Recog Unit} (name : String) : Outline (fun _ => 1) body →
    Outline Bool.toNat (attempt name body)
  | otherwise {α : Type} {spare : α → Nat} {body other : Recog α} : Outline spare body →
    Outline spare other → Outline spare (otherwise body other)
  /-- Every round needs a token to spare. -/
  | loop (which : Loop) : Outline Bool.toNat which.step →
    Outline (fun _ => 0) (repeatWhile which.step)
  /-- Nothing needs to be spared. -/
  | forgo {α : Type} {spare : α → Nat} {body : Recog α} : Outline spare body →
    Outline (fun _ => 0) body
  /-- The same computation, put together in another way. -/
  | same {α : Type} {spare : α → Nat} {body other : Recog α} : other = body →
    Outline spare body → Outline spare other

/-- What is counted behind the answer of a computation. -/
def countAnswered {α : Type} (body : Recog α) (count : α → Recognizer → Nat) (r : Recognizer) :
    Nat :=
  match body r with
  | .ok a r' => count a r'
  | .error _ _ => 0

/-- What is counted behind a recoverable refusal of a computation. -/
def countRefused {α : Type} (body : Recog α) (count : Recognizer → Nat) (r : Recognizer) : Nat :=
  match body r with
  | .error (.refused (.recoverable _)) r' => count r'
  | _ => 0

/-- The rounds that a loop completes, together with those inside of them, if a step completes as
many as `inside` says. A round is complete when its step answers `true`. -/
def laps (step : Recog Bool) (inside : Recognizer → Nat) (r : Recognizer) : Nat :=
  inside r + match step r with
    | .ok true r' => 1 + if r'.pending < r.pending then laps step inside r' else 0
    | .ok false _ => 0
    | .error _ _ => 0
termination_by r.pending

namespace Outline

/-- How many rounds the loops complete, all together and however the computation ends, begun with
the recognizer. -/
def rounds : {α : Type} → {spare : α → Nat} → {body : Recog α} → Outline spare body →
    Recognizer → Nat
  | _, _, _, pure .., _ => 0
  | _, _, _, refuse .., _ => 0
  | _, _, _, matchKind .., _ => 0
  | _, _, _, matchKeyword .., _ => 0
  | _, _, _, report .., _ => 0
  | _, _, _, endOfInput, _ => 0
  | _, _, _, @bind _ _ _ _ body _ first next, r =>
    first.rounds r + countAnswered body (fun a => (next a).rounds) r
  | _, _, _, cut first, r => first.rounds r
  | _, _, _, within name first, r => first.rounds (r.enter name)
  | _, _, _, attempt name first, r => first.rounds (r.enter name)
  | _, _, _, @otherwise _ _ body _ first second, r =>
    first.rounds r + countRefused body second.rounds r
  | _, _, _, loop which first, r => laps which.step first.rounds r
  | _, _, _, forgo first, r => first.rounds r
  | _, _, _, same _ first, r => first.rounds r

end Outline

/-- Where the computation ends so many tokens are consumed as it had rounds, and as its answer has
to spare. -/
def Accounts {α : Type} (spare : α → Nat) (body : Recog α) (rounds : Nat) (r : Recognizer) :
    Prop :=
  match body r with
  | .ok a r' => r.cursor.Advances (rounds + spare a) r'.cursor
  | .error _ r' => r.cursor.Advances rounds r'.cursor

section Accounts

variable {α β : Type} {spare : α → Nat} {body : Recog α} {rounds : Nat} {r r' : Recognizer}

theorem Accounts.of_ok {a : α} (h : Accounts spare body rounds r) (hb : body r = .ok a r') :
    r.cursor.Advances (rounds + spare a) r'.cursor := by
  rw [Accounts, hb] at h
  exact h

theorem Accounts.of_error {stop : Stop} (h : Accounts spare body rounds r)
    (hb : body r = .error stop r') : r.cursor.Advances rounds r'.cursor := by
  rw [Accounts, hb] at h
  exact h

theorem Accounts.leaves (h : Accounts spare body rounds r) :
    r.cursor.Advances rounds (leaves body r).cursor := by
  cases hb : body r with
  | ok a r' =>
    rw [leaves_of_ok hb]
    exact (h.of_ok hb).mono (Nat.le_add_right _ _)
  | error stop r' =>
    rw [leaves_of_error hb]
    exact h.of_error hb

theorem advances_consume (h : r.lookahead.kind ≠ .eof) :
    r.cursor.Advances 1 r.consume.cursor := by
  have next : r.cursor.Reads [r.lookahead] r.cursor.advance := .single h
  rw [← cursor_consume] at next
  exact ⟨_, next, Nat.le_refl _⟩

theorem accounts_within {name : String} (h : Accounts spare body rounds (r.enter name)) :
    Accounts spare (within name body) rounds r := by
  unfold Accounts Recognizer.within
  cases hb : body (r.enter name) with
  | ok a r' =>
    have consumed := h.of_ok hb
    exact consumed
  | error stop r' =>
    have consumed := h.of_error hb
    cases stop <;> exact consumed

theorem Accounts.attempt {name : String} {body : Recog Unit}
    (h : Accounts (fun _ => 1) (within name body) rounds r) :
    Accounts Bool.toNat (attempt name body) rounds r := by
  unfold Accounts Recognizer.attempt
  cases hb : Recognizer.within name body r with
  | ok a r' => exact h.of_ok hb
  | error stop r' => cases stop with
    | refused refusal => cases refusal with
      | recoverable error =>
        by_cases hsize : r'.matched.size = r.matched.size
        · simp only [if_pos hsize]
          exact h.of_error hb
        · simp only [if_neg hsize]
          exact h.of_error hb
      | fatal error => exact h.of_error hb
    | misuse => exact h.of_error hb

theorem Accounts.cut (h : Accounts spare body rounds r) :
    Accounts spare (cut body) rounds r := by
  unfold Accounts Recognizer.cut
  cases hb : body r with
  | ok a r' => exact h.of_ok hb
  | error stop r' => cases stop with
    | refused refusal => exact h.of_error hb
    | misuse => exact h.of_error hb

theorem Accounts.bind {total : β → Nat} {f : α → Recog β} {count : α → Recognizer → Nat}
    (h : Accounts spare body rounds r)
    (hf : ∀ a r', Accounts (fun b => total b - spare a) (f a) (count a r') r') :
    Accounts total (body >>= f) (rounds + countAnswered body count r) r := by
  unfold Accounts countAnswered
  cases hb : body r with
  | ok a r' =>
    have part := h.of_ok hb
    have rest := hf a r'
    rw [bind_of_ok hb]
    cases hr : f a r' with
    | ok b r'' => exact (part.trans (rest.of_ok hr)).mono (by dsimp only; omega)
    | error stop r'' => exact (part.trans (rest.of_error hr)).mono (by dsimp only; omega)
  | error stop r' =>
    rw [bind_of_error hb]
    exact h.of_error hb

theorem Accounts.otherwise {other : Recog α} {count : Recognizer → Nat}
    (h : Accounts spare body rounds r) (ho : ∀ r', Accounts spare other (count r') r') :
    Accounts spare (otherwise body other) (rounds + countRefused body count r) r := by
  unfold Accounts countRefused Recog.otherwise
  cases hb : body r with
  | ok a r' => exact h.of_ok hb
  | error stop r' =>
    have part := h.of_error hb
    cases stop with
    | refused refusal => cases refusal with
      | recoverable error =>
        have rest := ho r'
        dsimp only
        cases hr : other r' with
        | ok a r'' => exact (part.trans (rest.of_ok hr)).mono (Nat.le_of_eq (Nat.add_assoc ..))
        | error stop r'' => exact part.trans (rest.of_error hr)
      | fatal error => exact part
    | misuse => exact part

theorem Accounts.forgo (h : Accounts spare body rounds r) :
    Accounts (fun _ => 0) body rounds r := by
  unfold Accounts
  cases hb : body r with
  | ok a r' => exact (h.of_ok hb).mono (Nat.le_add_right _ _)
  | error stop r' => exact h.of_error hb

/-- The loop, by what its steps account for. A step that answers `true` has a token to spare, which
is the one of its round. -/
theorem accounts_repeatWhile {step : Recog Bool} {inside : Recognizer → Nat}
    (h : ∀ r, Accounts Bool.toNat step (inside r) r) (r : Recognizer) :
    Accounts (fun _ => 0) (repeatWhile step) (laps step inside r) r := by
  -- the rounds behind the first one have fewer tokens left, as that has consumed one to spare
  induction hn : r.pending using Nat.strongRecOn generalizing r with
  | ind n ih =>
    subst hn
    have first := h r
    unfold Accounts
    rw [repeatWhile_eq, laps]
    cases hs : step r with
    | ok again r' =>
      have round := first.of_ok hs
      rw [bind_of_ok hs]
      cases again with
      | true =>
        have hlt : r'.pending < r.pending := round.pending_lt (by simp)
        have more := ih _ hlt r' rfl
        have total : inside r + (1 + laps step inside r') =
            inside r + true.toNat + laps step inside r' := (Nat.add_assoc ..).symm
        simp only [goesOn, hlt, and_self, if_true, total]
        cases hm : repeatWhile step r' with
        | ok _ r'' => exact round.trans (more.of_ok hm)
        | error stop r'' => exact round.trans (more.of_error hm)
      | false => exact round
    | error stop r' =>
      rw [bind_of_error hs]
      exact first.of_error hs

end Accounts

namespace Outline

variable {α : Type} {spare : α → Nat} {body : Recog α}

/-- Whatever the computation does, it has consumed a token for each round of its loops, and those
that its answer has to spare. -/
theorem accounts (outline : Outline spare body) (r : Recognizer) :
    Accounts spare body (outline.rounds r) r := by
  induction outline generalizing r with
  | pure a ha =>
    show r.cursor.Advances (0 + _) r.cursor
    rw [ha]
    exact .refl
  | refuse => exact .refl
  | @matchKind kind hkind =>
    unfold Accounts Recognizer.matchKind
    by_cases hk : r.lookahead.kind = kind
    · rw [if_pos hk]
      exact advances_consume (hk ▸ hkind)
    · rw [if_neg hk]
      exact .refl
  | matchKeyword k =>
    unfold Accounts Recognizer.matchKeyword
    by_cases hk : r.lookahead.isKeyword k = true
    · rw [if_pos hk]
      exact advances_consume (by simp [kind_of_isKeyword hk])
    · rw [if_neg hk]
      exact .refl
  | report => exact .refl
  | endOfInput =>
    unfold Accounts Grammar.endOfInput
    by_cases he : r.lookahead.kind = .eof
    · rw [if_pos he]
      exact .refl
    · rw [if_neg he]
      exact .refl
  | bind first next ih ihn => exact (ih r).bind ihn
  | cut first ih => exact (ih r).cut
  | within name first ih => exact accounts_within (ih _)
  | attempt name first ih => exact (accounts_within (ih _)).attempt
  | otherwise first second ih ihs => exact (ih r).otherwise ihs
  | loop which first ih => exact accounts_repeatWhile ih r
  | forgo first ih => exact (ih r).forgo
  | same heq first ih =>
    subst heq
    exact ih r

/-- The loop is the one that goes round again whenever its step says so. -/
theorem repeatWhile_eq_of_step {step : Recog Bool} (outline : Outline Bool.toNat step) :
    repeatWhile step = (do if ← step then repeatWhile step) := by
  funext r
  rw [repeatWhile_eq]
  cases hs : step r with
  | ok again r' =>
    rw [bind_of_ok hs, bind_of_ok hs]
    cases again with
    | true =>
      have hlt : r'.pending < r.pending :=
        ((outline.accounts r).of_ok hs).pending_lt (by simp)
      simp only [goesOn, hlt, and_self, if_true]
    | false => rfl
  | error stop r' => rw [bind_of_error hs, bind_of_error hs]

end Outline
end Recog
end FrontEnd
