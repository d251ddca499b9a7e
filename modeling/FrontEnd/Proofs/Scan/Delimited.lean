import FrontEnd.Proofs.Scan.Implements

/-!
# FrontEnd.Proofs.Scan.Delimited

The rules that look for an end: comments and string literals.

* `Dispatch.splitAtClose_eq_some_iff` — a block comment ends with the first `*/`.
* `Dispatch.read_content` — what the content of a string literal adds to what is read behind it.
* `Dispatch.exists_stringLiteral` — one of the ways to end a string literal comes of whatever
  follows its quote.
* `Dispatch.lineComment_implements`, `Dispatch.blockComment_implements`,
  `Dispatch.string_implements` — the rules do what the relations say.
-/

namespace FrontEnd

namespace Dispatch

section Comments

theorem lineComment_implements : Implements Rule.lineComment LineComment := by
  intro source answer
  constructor
  · intro h
    unfold Rule.lineComment at h
    split at h
    · cases h
      exact .mk (run_takeWhile fun c => by simp)
    · cases h
  · intro h
    obtain ⟨run⟩ := h
    obtain ⟨rfl, rfl⟩ := (run_iff (q := (· != '\n')) fun c => by simp).1 run
    rfl

theorem close_infix_cons {c : Char} {source : List Char} :
    ['*', '/'] <:+: c :: source ↔
      (c = '*' ∧ ∃ rest, source = '/' :: rest) ∨ ['*', '/'] <:+: source := by
  have slash : ['/'] <+: source ↔ ∃ rest, source = '/' :: rest :=
    ⟨fun ⟨rest, h⟩ => ⟨rest, h.symm⟩, fun ⟨rest, h⟩ => ⟨rest, h.symm⟩⟩
  rw [List.infix_cons_iff, List.cons_prefix_cons, slash, @eq_comm _ '*']

theorem splitAtClose_eq_none_iff {source : List Char} :
    Rule.splitAtClose source = none ↔ ¬['*', '/'] <:+: source := by
  induction source using Rule.splitAtClose.induct with
  | case1 => simp [Rule.splitAtClose]
  | case2 rest => simp [Rule.splitAtClose, close_infix_cons]
  | case3 c rest hc ih =>
    rw [Rule.splitAtClose, Option.map_eq_none_iff, ih, close_infix_cons]
    · have : ¬(c = '*' ∧ ∃ after, rest = '/' :: after) := fun ⟨h, after, h'⟩ => hc after h h'
      simp [this]
    · exact hc

theorem splitAtClose_eq_some_iff {source text rest : List Char} :
    Rule.splitAtClose source = some (text, rest) ↔
      ∃ body, source = body ++ '*' :: '/' :: rest ∧ text = body ++ ['*', '/'] ∧
        ¬['*', '/'] <:+: body ++ ['*'] := by
  induction source using Rule.splitAtClose.induct generalizing text with
  | case1 => simp [Rule.splitAtClose]
  | case2 after =>
    rw [Rule.splitAtClose]
    constructor
    · intro h
      cases h
      exact ⟨[], rfl, rfl, by decide⟩
    · intro h
      obtain ⟨body, hsource, rfl, hbody⟩ := h
      -- a body that is not empty would itself begin with the mark
      cases body with
      | nil => cases hsource; rfl
      | cons c body =>
        refine absurd (close_infix_cons.2 (Or.inl ?_)) hbody
        cases body with
        | nil => cases hsource
        | cons d body => cases hsource; exact ⟨rfl, body ++ ['*'], rfl⟩
  | case3 c source hc ih =>
    rw [Rule.splitAtClose]
    · constructor
      · intro h
        obtain ⟨⟨text', rest'⟩, h', heq⟩ := Option.map_eq_some_iff.1 h
        cases heq
        obtain ⟨body, rfl, rfl, hbody⟩ := ih.1 h'
        refine ⟨c :: body, rfl, rfl, fun hi => ?_⟩
        rcases close_infix_cons.1 hi with ⟨hstar, after, hafter⟩ | hi
        · cases body with
          | nil => cases hafter
          | cons d body => cases hafter; exact hc _ hstar rfl
        · exact hbody hi
      · intro h
        obtain ⟨body, hsource, rfl, hbody⟩ := h
        cases body with
        | nil => cases hsource; exact absurd rfl (hc _ rfl)
        | cons d body =>
          cases hsource
          have : ¬['*', '/'] <:+: body ++ ['*'] := fun hi =>
            hbody (close_infix_cons.2 (Or.inr hi))
          rw [ih.2 ⟨body, rfl, rfl, this⟩]
          rfl
    · exact hc

theorem blockComment_implements : Implements Rule.blockComment BlockComment := by
  intro source answer
  constructor
  · intro h
    unfold Rule.blockComment at h
    split at h
    · split at h
      · rename_i hs
        cases h
        obtain ⟨body, rfl, rfl, hbody⟩ := splitAtClose_eq_some_iff.1 hs
        exact .closed hbody
      · rename_i hs
        cases h
        exact .unterminated (splitAtClose_eq_none_iff.1 hs)
    · cases h
  · intro h
    rcases h with ⟨hbody⟩ | ⟨hafter⟩
    · rename_i body rest
      have hs : Rule.splitAtClose (body ++ '*' :: '/' :: rest) = some (body ++ ['*', '/'], rest) :=
        splitAtClose_eq_some_iff.2 ⟨body, rfl, rfl, hbody⟩
      simp only [Rule.blockComment, hs]
    · simp only [Rule.blockComment, splitAtClose_eq_none_iff.2 hafter]

end Comments

section Strings

theorem escapeCode?_eq_some_iff {c v : Char} :
    Rule.escapeCode? c = some v ↔ Escape c v := by
  constructor
  · intro h
    unfold Rule.escapeCode? at h
    split_ifs at h with hn ht hr h0 hb hq
    · cases h; cases hn; exact .lineBreak
    · cases h; cases ht; exact .tab
    · cases h; cases hr; exact .carriageReturn
    · cases h; cases h0; exact .nul
    · cases h; cases hb; exact .backspace
    · cases h; cases hq; exact .quote
  · intro h
    cases h <;> rfl

theorem escapeCode?_eq_none_iff {c : Char} :
    Rule.escapeCode? c = none ↔ ∀ v, ¬Escape c v := by
  rw [Option.eq_none_iff_forall_ne_some]
  exact forall_congr' fun _ => not_congr escapeCode?_eq_some_iff

/-- The body with content in front. -/
def StringBody.precede (raw value : List Char) : Rule.StringBody → Rule.StringBody
  | .closed value' text rest => .closed (value ++ value') (raw ++ text) rest
  | .invalidEscape passed c => .invalidEscape (raw ++ passed) c
  | .unclosed => .unclosed

theorem read_content {raw value : List Char} (h : Content raw value) (tail : List Char) :
    Rule.StringBody.read (raw ++ tail) = StringBody.precede raw value (.read tail) := by
  induction h with
  | nil =>
    rw [List.nil_append]
    cases Rule.StringBody.read tail <;> rfl
  | @plain c raw value hquote hslash _ ih =>
    have hread : Rule.StringBody.read (c :: (raw ++ tail)) =
        (Rule.StringBody.read (raw ++ tail)).prepend c [c] := by
      cases raw ++ tail with
      | nil => simp [Rule.StringBody.read, hquote, Rule.StringBody.prepend]
      | cons d rest => simp [Rule.StringBody.read, hquote, hslash]
    rw [List.cons_append, hread, ih]
    cases Rule.StringBody.read tail <;> rfl
  | @escape c v raw value hc _ ih =>
    simp only [List.cons_append, Rule.StringBody.read, if_neg (by decide : '\\' ≠ '"'),
      if_pos, escapeCode?_eq_some_iff.2 hc, ih]
    cases Rule.StringBody.read tail <;> rfl

theorem read_quote {rest : List Char} :
    Rule.StringBody.read ('"' :: rest) = .closed [] ['"'] rest := by
  cases rest <;> simp [Rule.StringBody.read]

theorem read_badEscape {c : Char} {rest : List Char} (h : ∀ v, ¬Escape c v) :
    Rule.StringBody.read ('\\' :: c :: rest) = .invalidEscape ['\\'] c := by
  simp [Rule.StringBody.read, escapeCode?_eq_none_iff.2 h]

theorem string_of_stringLiteral {source : List Char} {answer : Answer}
    (h : StringLiteral source answer) : Rule.string source = some answer := by
  cases h with
  | closed content => simp [Rule.string, read_content content, read_quote, StringBody.precede]
  | invalidEscape content bad =>
    simp [Rule.string, read_content content, read_badEscape bad, StringBody.precede]
  | @unclosed raw value content =>
    have := read_content content []
    rw [List.append_nil] at this
    simp [Rule.string, this, Rule.StringBody.read, StringBody.precede]
  | unclosedEscape content =>
    simp [Rule.string, read_content content, Rule.StringBody.read, StringBody.precede]

theorem Content.append {raw value raw' value' : List Char} (h : Content raw value)
    (h' : Content raw' value') : Content (raw ++ raw') (value ++ value') := by
  induction h with
  | nil => exact h'
  | plain hquote hslash _ ih => exact .plain hquote hslash ih
  | escape hc _ ih => exact .escape hc ih

/-- Whatever follows the quote, one of the ways to end a string literal comes of it. -/
theorem exists_stringLiteral {raw value : List Char} (h : Content raw value) (after : List Char) :
    ∃ answer, StringLiteral ('"' :: (raw ++ after)) answer := by
  induction hn : after.length using Nat.strongRecOn generalizing raw value after with
  | ind n ih =>
    subst hn
    match after with
    | [] =>
      rw [List.append_nil]
      exact ⟨_, .unclosed h⟩
    | c :: rest =>
      by_cases hquote : c = '"'
      · subst hquote
        exact ⟨_, .closed h⟩
      by_cases hslash : c = '\\'
      · subst hslash
        match rest with
        | [] => exact ⟨_, .unclosedEscape h⟩
        | d :: rest =>
          by_cases hbad : ∀ v, ¬Escape d v
          · exact ⟨_, .invalidEscape h hbad⟩
          · obtain ⟨v, hv⟩ := not_forall_not.1 hbad
            have shorter : rest.length < ('\\' :: d :: rest).length := by
              simp only [List.length_cons]
              omega
            have := ih _ shorter (h.append (.escape hv .nil)) rest rfl
            simpa using this
      · have shorter : rest.length < (c :: rest).length := by
          simp only [List.length_cons]
          omega
        have := ih _ shorter (h.append (.plain hquote hslash .nil)) rest rfl
        simpa using this

theorem string_implements : Implements Rule.string StringLiteral := by
  intro source answer
  refine ⟨fun h => ?_, string_of_stringLiteral⟩
  unfold Rule.string at h
  split at h
  · rename_i after
    obtain ⟨other, hother⟩ := exists_stringLiteral .nil after
    have : some other = some answer := (string_of_stringLiteral hother).symm.trans h
    cases this
    exact hother
  · cases h

end Strings

end Dispatch

end FrontEnd
