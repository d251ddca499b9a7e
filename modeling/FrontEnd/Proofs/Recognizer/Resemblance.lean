import FrontEnd.Proofs.Recognizer.Continuation
import FrontEnd.Proofs.Recognizer.Session

/-!
# FrontEnd.Proofs.Recognizer.Resemblance

What a verdict sees of the tokens.

* `Token.Resembles` — tokens of one kind, and with one text if they are keywords. Names, the values
  of literals and lines may differ. Such tokens are one terminal of the grammar
  (`Token.Resembles.terminal`).
* `Recognizer.attempt_eq_by_text` — whether an attempt consumed something may be told by the length
  of the text consumed as well as by the number of tokens.
* `Recognizer.Resembles` — recognizers with the same terminals ahead, the same productions open and
  as many tokens consumed. All operations keep it (`Recognizer.Resembles.simulation`).
* `Recognizer.recognize_resembling` — so the verdicts on streams that resemble each other differ in
  nothing but the tokens they name.
-/

namespace FrontEnd

namespace Token

structure Resembles (a b : Token) : Prop where
  kind : a.kind = b.kind
  text : a.kind = .keyword → a.text = b.text

/-- The text of a keyword tells which one it is. -/
theorem Resembles.terminal {a b : Token} (h : a.Resembles b) : a.terminal = b.terminal := by
  by_cases hk : a.kind = .keyword
  · have form : a.form = b.form := Form.eq_of_kind_of_text h.kind (h.text hk)
    unfold Token.terminal
    rw [form]
  · rw [(terminal_eq_kind_iff hk).2 rfl, (terminal_eq_kind_iff (h.kind ▸ hk)).2 rfl, h.kind]

end Token

namespace Recognizer

open Recog

theorem matchedText_of_push {r r' : Recognizer} {token : Token}
    (h : r'.matched = r.matched.push token) :
    r'.matchedText = r.matchedText ++ (token.text ++ " ") := by
  unfold matchedText
  rw [h, Array.toList_push, List.map_append, String.join_append, List.map_singleton,
    String.join_cons, String.join_nil, String.append_empty]

/-- Each token makes the text longer, also one whose own text is empty. -/
theorem Steps.matchedText_lt {judging : Prop} {r r' : Recognizer} (h : Steps judging r r') :
    r'.matched = r.matched ∨ r.matched.size < r'.matched.size ∧
      r.matchedText.utf8ByteSize < r'.matchedText.utf8ByteSize := by
  induction h with
  | refl => exact .inl rfl
  | @tail r₁ r₂ _ hstep ih =>
    have grown (h : r₂.matched = r₁.matched.push r₁.lookahead) : r.matched.size < r₂.matched.size ∧
        r.matchedText.utf8ByteSize < r₂.matchedText.utf8ByteSize := by
      have blank : 0 < " ".utf8ByteSize := by decide
      rw [h, matchedText_of_push h, Array.size_push, String.utf8ByteSize_append,
        String.utf8ByteSize_append]
      rcases ih with heq | ⟨hsize, htext⟩
      · unfold Recognizer.matchedText
        rw [heq]
        omega
      · omega
    cases hstep with
    | note | nest | poison => exact ih
    | token | keyword => exact .inr (grown rfl)

/-- Whether something was consumed before a refusal shows in the length of the text, too, whatever
the texts of the tokens are. -/
theorem attempt_eq_by_text {judging : Prop} {body : Recog Unit} (h : Operates judging body)
    (name : String) (r : Recognizer) :
    attempt name body r = match within name body r with
      | .ok () r' => .ok true r'
      | .error (.refused (.recoverable _)) r' =>
        if r'.matchedText.utf8ByteSize = r.matchedText.utf8ByteSize then .ok false r'
        else .error .misuse r'
      | .error stop r' => .error stop r' := by
  have steps : Steps judging r (leaves (within name body) r) := (h.within name).steps r
  unfold attempt
  cases hw : within name body r with
  | ok a r' => rfl
  | error stop r' =>
    rw [leaves_of_error hw] at steps
    have same : r'.matched.size = r.matched.size ↔
        r'.matchedText.utf8ByteSize = r.matchedText.utf8ByteSize := by
      rcases steps.matchedText_lt with heq | ⟨hsize, htext⟩
      · unfold matchedText
        rw [heq]
        exact iff_of_true rfl rfl
      · exact iff_of_false hsize.ne' htext.ne'
    cases stop with
    | misuse => rfl
    | refused refusal =>
      cases refusal with
      | recoverable error => exact if_congr same rfl rfl
      | fatal error => rfl

/-- What is ahead of the two recognizers is the same to the grammar, and so is what was done. -/
structure Resembles (r s : Recognizer) : Prop where
  lookahead : s.lookahead.terminal = r.lookahead.terminal
  rest : s.rest.map Token.terminal = r.rest.map Token.terminal
  nesting : s.nesting = r.nesting
  size : s.matched.size = r.matched.size

namespace Resembles

variable {r s : Recognizer}

theorem note {level level' : Level} {event event' : RecognizerEvent} (h : Resembles r s) :
    Resembles (r.note level event) (s.note level' event') :=
  ⟨h.lookahead, h.rest, h.nesting, h.size⟩

theorem nest (change : List String → List String) (h : Resembles r s) :
    Resembles { r with nesting := change r.nesting } { s with nesting := change s.nesting } :=
  ⟨h.lookahead, h.rest, congrArg change h.nesting, h.size⟩

theorem poison (h : Resembles r s) :
    Resembles { r with poisoned := true } { s with poisoned := true } :=
  ⟨h.lookahead, h.rest, h.nesting, h.size⟩

theorem pending (h : Resembles r s) : s.pending = r.pending := by
  have length := congrArg List.length h.rest
  rw [List.length_map, List.length_map] at length
  rw [Recognizer.pending, Recognizer.pending, length, Token.kind_eq_of_terminal_eq h.lookahead]

/-- Behind the last token both find an end of input, whatever line it is on. -/
theorem consume (h : Resembles r s) : Resembles r.consume s.consume := by
  refine ⟨?_, ?_, h.nesting, ?_⟩
  · have rest := h.rest
    show (s.rest.headD _).terminal = (r.rest.headD _).terminal
    cases hr : r.rest with
    | nil =>
      rw [hr, List.map_nil, List.map_eq_nil_iff] at rest
      rw [rest]
      rfl
    | cons t tokens =>
      rw [hr] at rest
      obtain ⟨t', tokens', hs, ht, -⟩ := List.map_eq_cons_iff.1 rest
      rw [hs]
      exact ht
  · show s.rest.tail.map _ = r.rest.tail.map _
    rw [List.map_tail, List.map_tail, h.rest]
  · show (s.matched.push _).size = (r.matched.push _).size
    rw [Array.size_push, Array.size_push, h.size]

theorem track (h : Resembles r s) : Resembles r.track s.track :=
  ⟨h.lookahead, h.rest, h.nesting, h.size⟩

theorem simulation : Simulation Resembles (fun _ => False) where
  nesting h := h.nesting
  terminal h _ := h.lookahead
  takeToken h _ := h.note.consume
  takeKeyword _ h _ := h.note.consume.track
  rejectToken _ h := h.note
  rejectKeyword _ h := h.note
  report _ _ h := h.note
  enter name h := h.note.nest (name :: ·)
  leave _ h := (h.nest List.tail).note
  size h h' := by rw [h.size, h'.size]
  pending h h' _ _ := by rw [h.pending, h'.pending]
  spent h _ := h

theorem ofTokens {tokens tokens' : TokenStream}
    (h : tokens.map Token.terminal = tokens'.map Token.terminal) (label label' : String)
    (verbose verbose' : Bool) :
    Resembles (ofTokens tokens label verbose) (ofTokens tokens' label' verbose') := by
  cases tokens with
  | nil =>
    rw [List.map_nil, eq_comm, List.map_eq_nil_iff] at h
    rw [h]
    exact ⟨rfl, rfl, rfl, rfl⟩
  | cons t tokens =>
    obtain ⟨t', tokens', rfl, ht, htokens⟩ := List.map_eq_cons_iff.1 h.symm
    exact ⟨ht, htokens, rfl, rfl⟩

end Resembles

/-- After a verdict the lookahead is the token at the place up to which tokens were consumed. -/
theorem lookahead_of_refused {tokens : TokenStream} {label : String} {verbose : Bool}
    {refusal : Refusal} {r : Recognizer}
    (h : recognize (ofTokens tokens label verbose) = .error (.refused refusal) r) :
    r.lookahead = tokens.endless r.matched.size := by
  obtain ⟨k, hk⟩ := (StandsAt.ofTokens tokens label verbose).steps
    (leaves_of_error h ▸ (Operates.recognize trivial).steps _ : Steps True _ r)
  have size : r.matched.size = k := by
    rw [← Array.length_toList, hk.matched, List.length_map, List.length_range]
  rw [size]
  exact hk.lookahead

/-- Streams of the same length whose tokens resemble each other are both accepted, or both refused
after as many tokens, with the same complaint and the same productions open, each about its own
token at that place. -/
theorem recognize_resembling {tokens tokens' : TokenStream}
    (h : List.Forall₂ Token.Resembles tokens tokens') (label label' : String)
    (verbose verbose' : Bool) :
    (∃ r r', recognize (ofTokens tokens label verbose) = .ok () r ∧
      recognize (ofTokens tokens' label' verbose') = .ok () r' ∧
      r'.matched.size = r.matched.size) ∨
    ∃ (k : Nat) (complaint : Complaint) (path : List String) (r r' : Recognizer)
      (error error' : SyntaxError),
      recognize (ofTokens tokens label verbose) = .error (.refused (.fatal error)) r ∧
      recognize (ofTokens tokens' label' verbose') = .error (.refused (.fatal error')) r' ∧
      r.matched.size = k ∧ r'.matched.size = k ∧
      error.path = some path ∧ error'.path = some path ∧
      error.located.error = complaint.about (tokens.endless k) ∧
      error'.located.error = complaint.about (tokens'.endless k) := by
  have terminals : tokens.map Token.terminal = tokens'.map Token.terminal := by
    rw [← List.forall₂_eq_eq_eq, List.forall₂_map_left_iff, List.forall₂_map_right_iff]
    exact h.imp fun _ _ h => h.terminal
  have start := Resembles.ofTokens terminals label label' verbose verbose'
  have begun : Resembles (ofTokens tokens label verbose).begun
      (ofTokens tokens' label' verbose').begun := start.note.note.nest ("program" :: ·)
  have alike : Alike Resembles (recognize (ofTokens tokens label verbose))
      (recognize (ofTokens tokens' label' verbose')) :=
    alike_recognize Resembles.simulation rfl rfl
      (blind_program.alike Resembles.simulation begun id) (·.note) fun _ _ _ _ h => h.note.poison
  generalize hr : recognize (ofTokens tokens label verbose) = x at alike
  generalize hs : recognize (ofTokens tokens' label' verbose') = y at alike
  cases alike with
  | ok a h => exact .inl ⟨_, _, rfl, rfl, h.size⟩
  | @fatal r s complaint path h =>
    refine .inr ⟨_, complaint, path, r, s, _, _, rfl, rfl, rfl, h.size, rfl, rfl, ?_, ?_⟩
    · rw [← lookahead_of_refused hr]
      rfl
    · rw [← h.size, ← lookahead_of_refused hs]
      rfl
  | recoverable | misuse =>
    obtain ⟨_, _, _, hstop, -⟩ := rejects_of_refused rfl hr
    cases hstop

/-- A number where the next argument should be named. The verdict on the other stream follows
without a run on it, whatever its names are; one is empty. -/
theorem recognize_resembling_unnamed_argument :
    let tokens : TokenStream := [⟨.keyword .routineKw, 1⟩, ⟨.identifier "f", 1⟩,
      ⟨.punctuation .lParen, 1⟩, ⟨.identifier "a", 1⟩, ⟨.punctuation .comma, 1⟩,
      ⟨.number "1", 1⟩, .eof 1]
    let tokens' : TokenStream := [⟨.keyword .routineKw, 3⟩, ⟨.identifier "main", 4⟩,
      ⟨.punctuation .lParen, 4⟩, ⟨.identifier "", 6⟩, ⟨.punctuation .comma, 5⟩,
      ⟨.number "2.5", 8⟩, .eof 9]
    List.Forall₂ Token.Resembles tokens tokens' ∧
    ∃ r' error', recognize (ofTokens tokens' "b.sir" true) = .error (.refused (.fatal error')) r' ∧
      r'.matched.size = 5 ∧
      error'.path = some ["program", "declaration", "routine_declaration", "routine_header",
        "argument_list", "id_list"] ∧
      error'.located.error = .expected "identifier after ','" ⟨.number "2.5", 8⟩ := by
  intro tokens tokens'
  have resemble : List.Forall₂ Token.Resembles tokens tokens' := by
    repeat refine .cons ⟨by decide, by decide⟩ ?_
    exact .nil
  refine ⟨resemble, ?_⟩
  have run : (match recognize (ofTokens tokens "a.sir" false) with
      | .error stop r => some (stop, r.matched.size)
      | .ok _ _ => none) =
        some (.refused (.fatal ⟨⟨.expected "identifier after ','" ⟨.number "1", 1⟩, "a.sir", 1⟩,
          some ["program", "declaration", "routine_declaration", "routine_header",
            "argument_list", "id_list"]⟩), 5) := by
    decide +kernel
  rcases recognize_resembling resemble "a.sir" "b.sir" false true with
    ⟨r, r', hr, -⟩ | ⟨k, complaint, path, r, r', error, error', hr, hr', hk, hk', hpath, hpath',
      herror, herror'⟩
  · rw [hr] at run
    cases run
  · rw [hr] at run
    obtain ⟨hstop, hsize⟩ := Prod.mk.inj (Option.some.inj run)
    obtain rfl : k = 5 := hk.symm.trans hsize
    cases hstop
    refine ⟨r', error', hr', hk', hpath'.trans hpath.symm, herror'.trans ?_⟩
    cases complaint with
    | expected what =>
      obtain ⟨rfl, -⟩ := SyntaxFault.expected.inj herror
      rfl
    | expectedEnd => cases herror

end Recognizer
end FrontEnd
