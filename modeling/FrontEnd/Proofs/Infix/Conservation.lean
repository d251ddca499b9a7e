import FrontEnd.Proofs.Infix.Account

/-!
# FrontEnd.Proofs.Infix.Conservation

The resolver sends every operand and every operator once, and in which order.

* `Infix.Emits tokens sent` — the account at the end; `Infix.resolve_eq_ok_iff`.
* `Infix.Precedes` — what is sent first. That a token was read and does not wait decides it
  (`Infix.Emits.precedes`).
* `Infix.resolveText_conserves` — the answer is the operands and operators of the text, the operands
  in their order, and every operator behind the operands in front of it and in front of those behind
  its group.
-/

namespace FrontEnd
namespace Infix

/-- The account at the end: the operators that still wait are sent, too, and no parenthesis does. -/
def Emits (tokens : List String) (sent : List Occurrence) : Prop :=
  ∃ front waiting, Account tokens front waiting ∧ (∀ o ∈ waiting, o.isOperator = true) ∧
    sent = front ++ waiting

/-- The one is sent before the other. -/
def Precedes (sent : List Occurrence) (a b : Occurrence) : Prop :=
  ∃ front back, sent = front ++ back ∧ a ∈ front ∧ b ∈ back

theorem resolve_eq_ok_iff {tokens out : List String} :
    resolve tokens = .ok out ↔ ∃ sent, Emits tokens sent ∧ out = sent.map Occurrence.token := by
  rw [resolve, resolveFrom_eq_ok_iff]
  constructor
  · rintro ⟨_, after, last, hruns, hflush, rfl⟩
    obtain ⟨front, waiting, h, rfl, rfl⟩ := Account.start.exists_runs hruns
    obtain ⟨hwaiting, rfl⟩ := flush_eq_ok_iff.1 hflush
    exact ⟨front ++ waiting, ⟨front, waiting, h, hwaiting, rfl⟩, List.map_append.symm⟩
  · rintro ⟨_, ⟨front, waiting, h, hwaiting, rfl⟩, rfl⟩
    exact ⟨_, _, _, h.runs, flush_eq_ok_iff.2 ⟨hwaiting, rfl⟩, List.map_append⟩

namespace Emits

variable {tokens front : List String} {sent : List Occurrence} {p q : Occurrence}

theorem perm (h : Emits tokens sent) :
    sent.Perm ((occurrences tokens).filter Occurrence.isSent) := by
  obtain ⟨front, waiting, h, hwaiting, rfl⟩ := h
  have := h.perm
  rwa [filter_isSent_of_isOperator hwaiting] at this

theorem operands (h : Emits tokens sent) :
    sent.filter Occurrence.isOperand = (occurrences tokens).filter Occurrence.isOperand := by
  obtain ⟨front, waiting, h, hwaiting, rfl⟩ := h
  rw [List.filter_append, filter_isOperand_of_isOperator hwaiting, List.append_nil, h.operands]

theorem exists_front (h : Emits tokens sent) (hfront : front <+: tokens) :
    ∃ early waiting, Account front early waiting ∧ early <+: sent := by
  obtain ⟨all, _, h, -, rfl⟩ := h
  obtain ⟨early, waiting, hearly, hle⟩ := h.exists_front hfront
  exact ⟨early, waiting, hearly, hle.trans (List.prefix_append _ _)⟩

theorem mem_iff (h : Emits tokens sent) :
    p ∈ sent ↔ tokens[p.place]? = some p.token ∧ p.isSent = true := by
  rw [h.perm.mem_iff, List.mem_filter, mem_occurrences_iff]

end Emits

/-- What was read in a front part of the tokens and does not wait behind it is sent before what
follows that part. -/
theorem Emits.precedes {tokens front : List String} {sent : List Occurrence} {p q : Occurrence}
    (h : Emits tokens sent) (hfront : front <+: tokens) (hp : p ∈ sent) (hq : q ∈ sent)
    (hplace : p.place < front.length) (hle : front.length ≤ q.place)
    (hwaits : ∀ early waiting, Account front early waiting → p ∉ waiting) :
    Precedes sent p q := by
  obtain ⟨early, waiting, hearly, back, rfl⟩ := h.exists_front hfront
  obtain ⟨hget, hsent⟩ := h.mem_iff.1 hp
  have read : p ∈ early ++ waiting.filter Occurrence.isSent := by
    rw [hearly.perm.mem_iff, List.mem_filter, mem_occurrences_iff]
    refine ⟨?_, hsent⟩
    rwa [List.prefix_iff_eq_take.1 hfront, List.getElem?_take_of_lt hplace]
  have gone : p ∈ early := (List.mem_append.1 read).resolve_right fun hp =>
    hwaits early waiting hearly (List.mem_filter.1 hp).1
  have later : q ∈ back := (List.mem_append.1 hq).resolve_left fun hq =>
    Nat.not_lt.2 hle (hearly.place_lt q (List.mem_append_left _ hq))
  exact ⟨early, back, rfl, gone, later⟩

section Order

variable {tokens : List String} {sent : List Occurrence} {p q : Occurrence}

theorem Emits.operand_precedes (h : Emits tokens sent) (hp : p ∈ sent) (hq : q ∈ sent)
    (hoperand : q.isOperand = true) (hlt : q.place < p.place) : Precedes sent q p := by
  have hlength : (tokens.take p.place).length = p.place := by
    obtain ⟨hle, -⟩ := List.getElem?_eq_some_iff.1 (h.mem_iff.1 hp).1
    exact List.length_take_of_le (Nat.le_of_lt hle)
  refine h.precedes (List.take_prefix p.place tokens) hq hp (by rwa [hlength])
    (by rw [hlength]) fun early waiting hearly hwaiting => ?_
  rcases hearly.waits q hwaiting with hoperator | hopen
  · rw [Occurrence.isOperand, not_isOperand_of_isOperator hoperator] at hoperand
    cases hoperand
  · rw [Occurrence.isOperand, hopen] at hoperand
    exact absurd hoperand (by decide)

/-- What stands in a group is sent before what follows it. -/
theorem Emits.precedes_of_matches {i j : Nat} (h : Emits tokens sent) (hp : p ∈ sent)
    (hq : q ∈ sent) (hmatches : Matches tokens i j) (hi : i < p.place) (hj : p.place < j)
    (hlt : j < q.place) : Precedes sent p q := by
  obtain ⟨before, inside, after, rfl, rfl, rfl, balanced⟩ := hmatches
  have hfront : before ++ "(" :: inside ++ [")"] <+:
      before ++ "(" :: (inside ++ ")" :: after) := ⟨after, by simp⟩
  have hlength : (before ++ "(" :: inside ++ [")"]).length =
      before.length + inside.length + 2 := by
    simp
    omega
  refine h.precedes hfront hp hq (by omega) (by omega) fun early waiting hearly hwaiting => ?_
  exact Nat.lt_asymm hi (hearly.outside_group balanced p hwaiting)

end Order

/-- The tokens with blanks behind them are words again. -/
theorem words_spaced {tokens : List String} (h : ∀ token ∈ tokens, Text.Unbroken token) :
    Text.words (spaced tokens).toList = tokens := by
  induction tokens with
  | nil => exact Text.words_nil
  | cons token tokens ih =>
    obtain ⟨htoken, htokens⟩ := List.forall_mem_cons.1 h
    have hspaced : (spaced (token :: tokens)).toList =
        token.toList ++ ([' '] ++ (spaced tokens).toList) := by
      simp [spaced]
    rw [hspaced, Text.words_word_append htoken (by rintro c ⟨⟩; rfl),
      Text.words_blank_append (by decide), ih htokens]

theorem resolve_perm {tokens out : List String} (h : resolve tokens = .ok out) :
    out.Perm (tokens.filter (!isParenthesis ·)) := by
  obtain ⟨sent, hsent, rfl⟩ := resolve_eq_ok_iff.1 h
  have lexemes := hsent.perm.map Occurrence.token
  rwa [show Occurrence.isSent = (!isParenthesis ·) ∘ Occurrence.token from rfl,
    ← List.filter_map, map_token_occurrences] at lexemes

theorem resolveText_eq_ok_iff {text out : String} : resolveText text = .ok out ↔
    ∃ tokens, resolve (Text.words text.toList) = .ok tokens ∧ out = spaced tokens := by
  rw [resolveText]
  cases resolve (Text.words text.toList) with
  | error error =>
    constructor
    · rintro ⟨⟩
    · rintro ⟨_, ⟨⟩, _⟩
  | ok tokens =>
    constructor
    · rintro ⟨⟩
      exact ⟨tokens, rfl, rfl⟩
    · rintro ⟨_, ⟨⟩, rfl⟩
      rfl

/-- What is sent are words, as all tokens of a text are. -/
theorem unbroken_of_resolve {text : List Char} {out : List String}
    (h : resolve (Text.words text) = .ok out) : ∀ token ∈ out, Text.Unbroken token :=
  fun token htoken => Text.unbroken_of_mem_words token <|
    (List.mem_filter.1 ((resolve_perm h).mem_iff.1 htoken)).1

theorem words_of_resolve {text : List Char} {out : List String}
    (h : resolve (Text.words text) = .ok out) : Text.words (spaced out).toList = out :=
  words_spaced (unbroken_of_resolve h)

/-- Where the text resolves, the answer is tokens with a blank behind each. They are the operands
and operators of the text, every one once and as it is spelled, and the operands stand in their
order. Every operator stands behind the operands in front of it, and in front of those behind the
parenthesis that closes a group around it. -/
theorem resolveText_conserves {text out : String} (h : resolveText text = .ok out) :
    let tokens := Text.words text.toList
    ∃ sent : List Occurrence, Emits tokens sent ∧
      out = spaced (sent.map Occurrence.token) ∧
      Text.words out.toList = sent.map Occurrence.token ∧
      sent.Perm ((occurrences tokens).filter fun o => o.token ≠ "(" ∧ o.token ≠ ")") ∧
      sent.filter Occurrence.isOperand = (occurrences tokens).filter Occurrence.isOperand ∧
      ∀ p ∈ sent, p.isOperator = true → ∀ q ∈ sent, q.isOperand = true →
        (q.place < p.place → Precedes sent q p) ∧
        ∀ i j, Matches tokens i j → i < p.place → p.place < j → j < q.place →
          Precedes sent p q := by
  intro tokens
  obtain ⟨answer, hanswer, rfl⟩ := resolveText_eq_ok_iff.1 h
  obtain ⟨sent, hsent, rfl⟩ := resolve_eq_ok_iff.1 hanswer
  have hpred :
      Occurrence.isSent = fun o : Occurrence => decide (o.token ≠ "(" ∧ o.token ≠ ")") := by
    funext o
    simp [Occurrence.isSent, isParenthesis]
  refine ⟨sent, hsent, rfl, words_of_resolve hanswer, hpred ▸ hsent.perm, hsent.operands, ?_⟩
  intro p hp _ q hq hoperand
  exact ⟨hsent.operand_precedes hp hq hoperand, fun i j => hsent.precedes_of_matches hp hq⟩

/-- An operator that is there twice, and the same in its other spelling in a group. -/
theorem resolveText_conserves_two_spellings :
    let text := "a  != ( b <> c )\t!= d"
    let tokens := ["a", "!=", "(", "b", "<>", "c", ")", "!=", "d"]
    resolveText text = .ok "a b c <> != d != " ∧ Text.words text.toList = tokens ∧
      Matches tokens 2 6 ∧
      ∃ sent : List Occurrence, Emits tokens sent ∧
        sent.map Occurrence.token = ["a", "b", "c", "<>", "!=", "d", "!="] ∧
        sent.Perm [⟨"a", 0⟩, ⟨"!=", 1⟩, ⟨"b", 3⟩, ⟨"<>", 4⟩, ⟨"c", 5⟩, ⟨"!=", 7⟩, ⟨"d", 8⟩] ∧
        sent.filter Occurrence.isOperand = [⟨"a", 0⟩, ⟨"b", 3⟩, ⟨"c", 5⟩, ⟨"d", 8⟩] ∧
        Precedes sent ⟨"c", 5⟩ ⟨"!=", 7⟩ ∧ Precedes sent ⟨"<>", 4⟩ ⟨"d", 8⟩ := by
  intro text tokens
  have answer : resolveText text = .ok "a b c <> != d != " := by decide +kernel
  have hwords : Text.words text.toList = tokens := by decide +kernel
  have group : Matches tokens 2 6 :=
    ⟨["a", "!="], ["b", "<>", "c"], ["!=", "d"], rfl, rfl, rfl, by decide, by decide⟩
  obtain ⟨sent, emits, -, lexemes, perm, operands, order⟩ := resolveText_conserves answer
  rw [hwords] at emits perm operands order
  have member {o : Occurrence} (h : o ∈ (occurrences tokens).filter _) : o ∈ sent :=
    perm.mem_iff.2 h
  refine ⟨answer, hwords, group, sent, emits, ?_, perm, operands, ?_, ?_⟩
  · rw [← lexemes]
    decide +kernel
  · exact (order _ (member (by decide)) (by decide) _ (member (by decide)) (by decide)).1
      (by decide)
  · exact (order _ (member (by decide)) (by decide) _ (member (by decide)) (by decide)).2 2 6 group
      (by decide) (by decide) (by decide)

end Infix
end FrontEnd
