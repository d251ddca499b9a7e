import FrontEnd.Proofs.Recognizer.Asking
import FrontEnd.Proofs.Recognizer.Declarations
import FrontEnd.Proofs.Recognizer.Rejection
import Mathlib.Data.List.Forall2

/-!
# FrontEnd.Proofs.Recognizer.Headers

The reports of declarations, and the declarations that they are of.

* `Recog.Heads`, `Recog.Declaring` — a declaration reads its keyword first and then nothing that
  takes the line on, so that it is reported with the line of the token behind the keyword.
* `Declares` — a declaration, and its header: the label, that line, the storage class by the
  modifier, and what is declared. There is only one (`Declares.header_unique`).
* `Recog.ends_declaration` — read to its end, a declaration is reported with its header; otherwise
  nothing is reported, and the tokens read do not begin with a declaration.
* `Recog.Accounted`, `Recog.ends_declarationLoop` — so the reports keep account of the tokens
  matched, declaration by declaration.
* `Recognizer.headers_recognize` — the headers reported by a verdict are those of the declarations
  among the tokens matched, however it ends.
-/

namespace FrontEnd

namespace Recognizer

open Recog Cursor

/-- From the one to the other the keyword was read, and behind it no other one, and nothing was
declared yet; so the line is that of the token behind the keyword. -/
structure Headed (k : Keyword) (r r' : Recognizer) : Prop where
  file : r'.file = r.file
  headers : r'.headers = r.headers
  reads : ∃ keyword w, keyword.isKeyword k = true ∧ r.cursor.Reads (keyword :: w) r'.cursor ∧
    (∀ token ∈ w, token.kind ≠ .keyword) ∧
    (w ++ [r'.lookahead]).head?.map Token.line = some r'.line

/-- The same, and in the end the declaration was reported. -/
def Completed (storage : Storage) (what : Declared) (r r' : Recognizer) : Prop :=
  ∃ r₁, Headed what.keyword r r₁ ∧
    Idle (r₁.announce (.declared r₁.file r₁.line storage what)) r'

variable {k : Keyword} {storage : Storage} {what : Declared} {r r₁ r₂ : Recognizer}

theorem Headed.keyword (h : r.lookahead.isKeyword k = true) :
    Headed k r (r.announce (.matchedKeyword k)).consume.track := by
  have heof : r.lookahead.kind ≠ .eof := by
    rw [kind_of_isKeyword h]
    decide
  refine ⟨rfl, headers_announce.trans (List.append_nil _), r.lookahead, [], h, ?_,
    List.forall_mem_nil _, rfl⟩
  rw [cursor_track, cursor_consume]
  exact .single heof

/-- Nothing that is no heading takes the line on. -/
theorem Headed.strides (h : Headed k r r₁) (hs : Strides False r₁ r₂) : Headed k r r₂ := by
  obtain ⟨hfile, hheaders, keyword, w, hk, hreads, hw, hline⟩ := h
  obtain ⟨hline', hheaders', v, hreads', hv⟩ := hs.exists_reads
  refine ⟨hs.file.trans hfile, hheaders'.trans hheaders, keyword, w ++ v, hk, hreads.trans hreads',
    List.forall_mem_append.2 ⟨hw, hv⟩, ?_⟩
  have next : (v ++ [r₂.lookahead]).head? = some r₁.lookahead := hreads'.head?_eq
  rw [List.append_assoc, List.head?_append, next, hline', ← hline, List.head?_append]
  rfl

theorem Headed.idle (h : Headed k r r₁) (hi : Idle r₁ r₂) : Headed k r r₂ := by
  obtain ⟨hfile, hheaders, keyword, w, hk, hreads, hw, hline⟩ := h
  have hl : r₂.lookahead = r₁.lookahead := congrArg Cursor.lookahead hi.cursor
  exact ⟨hi.file.trans hfile, hi.headers.trans hheaders, keyword, w, hk, hi.cursor ▸ hreads, hw,
    by rw [hl, hi.line]; exact hline⟩

theorem Headed.of_idle (hi : Idle r r₁) (h : Headed k r₁ r₂) : Headed k r r₂ := by
  obtain ⟨hfile, hheaders, hreads⟩ := h
  rw [hi.cursor] at hreads
  exact ⟨hfile.trans hi.file, hheaders.trans hi.headers, hreads⟩

theorem Headed.size_lt (h : Headed k r r₁) : r.matched.size < r₁.matched.size := by
  obtain ⟨-, -, keyword, w, -, hreads, -⟩ := h
  have length := congrArg List.length hreads.matched
  simp only [Recognizer.cursor, List.length_append, List.length_cons, Array.length_toList] at length
  omega

theorem Completed.idle (h : Completed storage what r r₁) (hi : Idle r₁ r₂) :
    Completed storage what r r₂ := by
  obtain ⟨r₀, headed, reported⟩ := h
  exact ⟨r₀, headed, reported.trans hi⟩

theorem Completed.of_idle (hi : Idle r r₁) (h : Completed storage what r₁ r₂) :
    Completed storage what r r₂ := by
  obtain ⟨r₀, headed, reported⟩ := h
  exact ⟨r₀, headed.of_idle hi, reported⟩

end Recognizer

namespace Recog

open Recognizer Recognizer.Grammar

/-- How a computation ends that is to read a keyword first: as it should, or stopped, with nothing
done or somewhere behind the keyword. -/
inductive Ending (through : Recognizer → Prop) (r : Recognizer) :
    EStateM.Result Stop Recognizer Unit → Prop
  | through {r' : Recognizer} : through r' → Ending through r (.ok () r')
  | idle {stop : Stop} {r' : Recognizer} : Idle r r' → Ending through r (.error stop r')
  | headed {what : Declared} {stop : Stop} {r' : Recognizer} : Headed what.keyword r r' →
    Ending through r (.error stop r')

/-- The computation reads the keyword of such a declaration, and no other one. -/
def Heads (what : Declared) (body : Recog Unit) : Prop :=
  ∀ r, Ending (Headed what.keyword r) r (body r)

/-- The computation is a declaration, except for a modifier: it reads one and reports it. -/
def Declaring (storage : Storage) (body : Recog Unit) : Prop :=
  ∀ r, Ending (fun r' => ∃ what, Completed storage what r r') r (body r)

namespace Ending

variable {through through' : Recognizer → Prop} {r r₁ : Recognizer}
  {result : EStateM.Result Stop Recognizer Unit}

/-- Stopped, it does not matter how, or what for. -/
theorem of_error {stop stop' : Stop} (h : Ending through r (.error stop r₁)) :
    Ending through' r (.error stop' r₁) := by
  cases h with
  | idle h => exact .idle h
  | headed h => exact .headed h

theorem of_idle (hi : Idle r r₁) (h : Ending through r₁ result)
    (hthrough : ∀ r', through r' → through' r') : Ending through' r result := by
  cases h with
  | through h => exact .through (hthrough _ h)
  | idle h => exact .idle (hi.trans h)
  | headed h => exact .headed (.of_idle hi h)

/-- To open a production and to close it changes nothing. -/
theorem within {name : String} {body : Recog Unit}
    (h : Ending through (r.enter name) (body (r.enter name)))
    (hthrough : ∀ r', through r' → through' (r'.leave name)) :
    Ending through' r (Recognizer.within name body r) := by
  unfold Recognizer.within
  generalize body (r.enter name) = result at h ⊢
  cases h with
  | through h => exact .through (hthrough _ h)
  | @idle stop r' h =>
    have outside : Idle r r' := .trans .enter h
    cases stop with
    | refused refusal => exact .idle (outside.trans .leave)
    | misuse => exact .idle outside
  | @headed what stop r' h =>
    have outside : Headed what.keyword r r' := .of_idle .enter h
    cases stop with
    | refused refusal => exact .headed (outside.idle .leave)
    | misuse => exact .headed outside

end Ending

theorem matchKeyword_found {k : Keyword} {r : Recognizer} (h : r.lookahead.isKeyword k = true) :
    matchKeyword k r = .ok true (r.announce (.matchedKeyword k)).consume.track := by
  rw [matchKeyword, if_pos h]

theorem matchKeyword_missing {k : Keyword} {r : Recognizer}
    (h : r.lookahead.isKeyword k = false) :
    matchKeyword k r = .ok false (r.announce (.rejectedKeyword r.lookahead k)) := by
  rw [matchKeyword, if_neg (by rw [h]; exact Bool.false_ne_true)]

namespace Heads

variable {what : Declared} {body : Recog Unit} {f : Unit → Recog Unit}

theorem expectKeyword (what : Declared) (text : String) :
    Heads what (expectKeyword what.keyword text) := by
  intro r
  cases hk : r.lookahead.isKeyword what.keyword with
  | true =>
    rw [Recognizer.expectKeyword, bind_of_ok (matchKeyword_found hk)]
    exact .through (.keyword hk)
  | false =>
    rw [Recognizer.expectKeyword, bind_of_ok (matchKeyword_missing hk)]
    exact .idle (.note rfl rfl)

theorem bind (h : Heads what body) (hf : Asks False (f ())) : Heads what (body >>= f) := by
  intro r
  have first := h r
  cases hb : body r with
  | ok a r₁ =>
    rw [hb] at first
    cases first with
    | through headed =>
      have onward := headed.strides (hf.strides r₁)
      rw [bind_of_ok hb]
      unfold leaves at onward
      cases hs : f () r₁ with
      | ok b r₂ =>
        rw [hs] at onward
        exact .through onward
      | error stop r₂ =>
        rw [hs] at onward
        exact .headed onward
  | error stop r₁ =>
    rw [hb] at first
    rw [bind_of_error hb]
    exact first

theorem within (name : String) (h : Heads what body) : Heads what (within name body) := fun r =>
  (h (r.enter name)).within fun _ headed => .of_idle .enter (headed.idle .leave)

end Heads

namespace Declaring

variable {storage : Storage} {body other : Recog Unit}

theorem report {what : Declared} (h : Heads what body) :
    Declaring storage (body >>= fun _ => report storage what) := by
  intro r
  have first := h r
  cases hb : body r with
  | ok a r₁ =>
    rw [hb] at first
    rw [bind_of_ok hb]
    cases first with
    | through headed => exact .through ⟨what, r₁, headed, .refl⟩
  | error stop r₁ =>
    rw [hb] at first
    rw [bind_of_error hb]
    exact first.of_error

theorem globalVar (storage : Storage) : Declaring storage (globalVar storage) := by
  have heads : Heads .globalVariable (do
      expectKeyword .varKw "'var'"
      variableList storage
      cut (expect .semicolon "';' to terminate statement")) :=
    .bind (.expectKeyword .globalVariable _) <|
      .bind (asks_variableList storage) fun _ => .cut (.expect _ (by decide) (by decide))
  have reported : Declaring storage _ := report heads
  simp only [bind_assoc] at reported
  exact reported

theorem routineDeclaration (storage : Storage) :
    Declaring storage (routineDeclaration storage) := by
  have header : Heads .routine routineHeader :=
    .bind (.expectKeyword .routine _) asks_routineName
  have heads : Heads .routine (do
      Recognizer.within "routine_header" routineHeader
      routineBody storage) := .bind (.within _ header) (asks_routineBody storage)
  have reported : Declaring storage _ := report heads
  simp only [bind_assoc] at reported
  exact reported

theorem within (name : String) (h : Declaring storage body) :
    Declaring storage (within name body) := by
  intro r
  refine (h (r.enter name)).within fun r' completed => ?_
  obtain ⟨what, completed⟩ := completed
  exact ⟨what, .of_idle .enter (completed.idle .leave)⟩

theorem of_idle {r r₁ : Recognizer} (h : Declaring storage body) (hi : Idle r r₁) :
    Ending (fun r' => ∃ what, Completed storage what r r') r (body r₁) := by
  refine (h r₁).of_idle hi fun r' completed => ?_
  obtain ⟨what, completed⟩ := completed
  exact ⟨what, .of_idle hi completed⟩

/-- Where the first one was only tried, nothing was done. -/
theorem unlessAttempt (name : String) (h : Declaring storage body) (ho : Declaring storage other) :
    Declaring storage (do if ← attempt name body then return () else other) := by
  intro r
  have first := h.within name r
  cases hb : Recognizer.within name body r with
  | ok a r₁ =>
    rw [hb] at first
    have passed : attempt name body r = .ok true r₁ := by rw [attempt, hb]
    rw [bind_of_ok passed]
    exact first
  | error stop r₁ =>
    rw [hb] at first
    have fails {stop' : Stop} (failed : attempt name body r = .error stop' r₁) :
        Ending (fun r' => ∃ what, Completed storage what r r') r
          ((attempt name body >>= fun done => if done then pure () else other) r) := by
      rw [bind_of_error failed]
      exact first.of_error
    cases stop with
    | misuse => exact fails (by rw [attempt, hb])
    | refused refusal => cases refusal with
      | fatal error => exact fails (by rw [attempt, hb])
      | recoverable error =>
        by_cases hsize : r₁.matched.size = r.matched.size
        · have tried : attempt name body r = .ok false r₁ := by
            rw [attempt, hb]
            exact if_pos hsize
          rw [bind_of_ok tried]
          cases first with
          | idle h => exact ho.of_idle h
          | headed h => exact absurd hsize (Nat.ne_of_gt h.size_lt)
        · exact fails (by rw [attempt, hb]; exact if_neg hsize)

theorem routine (storage : Storage) : Declaring storage (routine storage) := by
  have first := (routineDeclaration storage).within "routine_declaration"
  by_cases hs : storage = .classic
  · rw [hs, routine_classic, ← hs]
    exact first
  · rw [routine_modified hs]
    intro r
    have first := first r
    unfold Recog.otherwise
    generalize Recognizer.within "routine_declaration" (Grammar.routineDeclaration storage) r =
      result at first ⊢
    cases result with
    | ok a r' => exact first
    | error stop r' => cases stop with
      | refused refusal => cases refusal with
        | recoverable error => exact first.of_error
        | fatal error => exact first
      | misuse => exact first

end Declaring

/-- From the one to the other the modifier was read, if there is one. -/
structure Modified (storage : Storage) (r r' : Recognizer) : Prop where
  file : r'.file = r.file
  headers : r'.headers = r.headers
  reads : ∃ modifier : TokenStream, modifier.map Token.terminal = storage.modifier ∧
    r.cursor.Reads modifier r'.cursor

theorem Modified.of_idle {storage : Storage} {r r₁ r₂ : Recognizer} (hi : Idle r r₁)
    (h : Modified storage r₁ r₂) : Modified storage r r₂ := by
  obtain ⟨hfile, hheaders, hreads⟩ := h
  rw [hi.cursor] at hreads
  exact ⟨hfile.trans hi.file, hheaders.trans hi.headers, hreads⟩

/-- A keyword is read as the modifier that it is, or nothing is done. -/
theorem matchKeyword_modified (storage : Storage) (k : Keyword)
    (hk : storage.modifier = [.keyword k]) (r : Recognizer) :
    (∃ r₁, matchKeyword k r = .ok true r₁ ∧ Modified storage r r₁) ∨
      ∃ r₁, matchKeyword k r = .ok false r₁ ∧ Idle r r₁ := by
  cases hl : r.lookahead.isKeyword k with
  | true =>
    have heof : r.lookahead.kind ≠ .eof := by
      rw [kind_of_isKeyword hl]
      decide
    have terminals : [r.lookahead].map Token.terminal = storage.modifier := by
      rw [hk, ← Token.isKeyword_iff_terminal.1 hl]
      rfl
    have reads : r.cursor.Reads [r.lookahead]
        (r.announce (.matchedKeyword k)).consume.track.cursor := by
      rw [cursor_track, cursor_consume]
      exact .single heof
    exact .inl ⟨_, matchKeyword_found hl,
      ⟨rfl, headers_announce.trans (List.append_nil _), _, terminals, reads⟩⟩
  | false => exact .inr ⟨_, matchKeyword_missing hl, .note rfl rfl⟩

theorem exists_modified (r : Recognizer) :
    ∃ storage r₁, storageModifier r = .ok storage r₁ ∧ Modified storage r r₁ := by
  rcases matchKeyword_modified .external .externKw rfl r with ⟨r₁, hr₁, h⟩ | ⟨r₁, hr₁, h⟩
  · exact ⟨.external, r₁, bind_of_ok hr₁, h⟩
  · rcases matchKeyword_modified .static .staticKw rfl r₁ with ⟨r₂, hr₂, h'⟩ | ⟨r₂, hr₂, h'⟩
    · exact ⟨.static, r₂, (bind_of_ok hr₁).trans (bind_of_ok hr₂), .of_idle h h'⟩
    · have idle := h.trans h'
      exact ⟨.classic, r₂, (bind_of_ok hr₁).trans (bind_of_ok hr₂), idle.file, idle.headers, [],
        rfl, idle.cursor ▸ .refl⟩

theorem declaration_ending (r : Recognizer) : ∃ storage r₁, Modified storage r r₁ ∧
    Ending (fun r' => ∃ what, Completed storage what r₁ r') r₁ (declaration r) := by
  obtain ⟨storage, r₁, hr₁, modified⟩ := exists_modified r
  have declaring : Declaring storage _ :=
    .unlessAttempt "global_var" (.globalVar storage) (.routine storage)
  refine ⟨storage, r₁, modified, ?_⟩
  rw [declaration, bind_of_ok hr₁]
  exact declaring r₁

end Recog

/-- The tokens are one declaration, and this is its header: it names the label, the line of the
token behind the keyword, the storage class that the modifier stands for, and what is declared. -/
inductive Declares (label : String) : TokenStream → String → Prop
  | mk {storage : Storage} {what : Declared} {modifier rest : TokenStream} {keyword next : Token} :
    modifier.map Token.terminal = storage.modifier →
    keyword.terminal = .keyword what.keyword →
    Derives (.production (what.production storage))
      ((keyword :: next :: rest).map Token.terminal) →
    Declares label (modifier ++ keyword :: next :: rest)
      (label ++ ":" ++ toString next.line ++ "> Matched " ++ storage.name ++ " " ++ what.name)

theorem Declares.isDeclaration {label header : String} {tokens : TokenStream}
    (h : Declares label tokens header) : tokens.IsDeclaration := by
  obtain ⟨hmodifier, -, hderives⟩ := h
  unfold TokenStream.IsDeclaration
  rw [List.map_append, hmodifier]
  exact derives_declaration_iff.2 ⟨_, _, _, rfl, hderives⟩

/-- A declaration has one header only. -/
theorem Declares.header_unique {label header header' : String} {tokens : TokenStream}
    (h : Declares label tokens header) (h' : Declares label tokens header') : header = header' := by
  generalize htokens : tokens = tokens' at h'
  obtain @⟨storage, what, modifier, rest, keyword, next, hmodifier, hkeyword, -⟩ := h
  obtain @⟨storage', what', modifier', rest', keyword', next', hmodifier', hkeyword', -⟩ := h'
  have terminals := congrArg (List.map Token.terminal) htokens
  simp only [List.map_append, List.map_cons, hmodifier, hmodifier', hkeyword, hkeyword']
    at terminals
  obtain ⟨rfl, rfl, -⟩ := Control.modifier_append_inj terminals
  have length : modifier.length = modifier'.length := by
    rw [← List.length_map, hmodifier, ← hmodifier', List.length_map]
  obtain ⟨-, hbehind⟩ := List.append_inj htokens length
  cases hbehind
  rfl

namespace Recog

open Recognizer Recognizer.Grammar

/-- A declaration that is read and reported has the header that it should have. -/
theorem exists_declares {storage : Storage} {what : Declared} {r r₁ r' : Recognizer}
    {w : TokenStream} (modified : Modified storage r r₁) (completed : Completed storage what r₁ r')
    (hreads : r.cursor.Reads w r'.cursor)
    (hrun : Control.top.run (w.map Token.terminal) = some .top) :
    ∃ header, Declares r.file w header ∧ r'.headers = r.headers ++ [header] ∧
      r'.file = r.file := by
  obtain ⟨hfile, hheaders, modifier, hmodifier, hreads₁⟩ := modified
  obtain ⟨r₂, ⟨hfile', hheaders', keyword, v, hk, hreads₂, hv, hline⟩, reported⟩ := completed
  obtain rfl : w = modifier ++ keyword :: v :=
    hreads.unique (hreads₁.trans (reported.cursor ▸ hreads₂))
  have hterminal := Token.isKeyword_iff_terminal.1 hk
  have plain := TokenStream.plain_terminals hv
  rw [List.map_append, List.map_cons, hmodifier, hterminal] at hrun
  have derives := Control.derives_of_run plain hrun
  obtain ⟨v', hv', hne, -⟩ := exists_rest_of_derives derives
  obtain ⟨-, rfl⟩ := List.cons.inj hv'
  obtain ⟨next, rest, rfl⟩ := List.exists_cons_of_ne_nil (mt (congrArg _) hne)
  have line : next.line = r₂.line := Option.some.inj hline
  have file : r₂.file = r.file := hfile'.trans hfile
  refine ⟨_, .mk hmodifier hterminal (by rw [List.map_cons, hterminal]; exact derives), ?_,
    reported.file.trans file⟩
  rw [reported.headers, headers_announce, hheaders', hheaders, line, ← file]
  rfl

/-- A declaration that is refused for good is one that has been begun. -/
theorem not_isDeclaration_front {storage : Storage} {r r₁ r' : Recognizer} {w : TokenStream}
    {c : Control} {stop : Stop} (modified : Modified storage r r₁)
    (ending : Ending (fun r' => ∃ what, Completed storage what r₁ r') r₁ (.error stop r'))
    (hreads : r.cursor.Reads w r'.cursor)
    (hrun : Control.top.run (w.map Token.terminal) = some c) (hc : c ≠ .top) :
    (∀ front : TokenStream, front <+: w → ¬front.IsDeclaration) ∧
      r'.headers = r.headers ∧ r'.file = r.file := by
  obtain ⟨hfile, hheaders, modifier, hmodifier, hreads₁⟩ := modified
  cases ending with
  | idle idle =>
    obtain rfl : w = modifier := hreads.unique (idle.cursor ▸ hreads₁)
    refine ⟨fun front hfront => ?_, idle.headers.trans hheaders, idle.file.trans hfile⟩
    have begun : storage.modifier ++ .keyword Declared.routine.keyword :: [] =
      w.map Token.terminal ++ [.keyword Declared.routine.keyword] := by rw [hmodifier]
    exact Control.not_derives_front (List.forall_mem_nil _) begun hrun hc (hfront.map _)
  | @headed what _ _ headed =>
    obtain ⟨hfile', hheaders', keyword, v, hk, hreads₂, hv, -⟩ := headed
    obtain rfl : w = modifier ++ keyword :: v := hreads.unique (hreads₁.trans hreads₂)
    refine ⟨fun front hfront => ?_, hheaders'.trans hheaders, hfile'.trans hfile⟩
    have begun : storage.modifier ++ .keyword what.keyword :: v.map Token.terminal =
        (modifier ++ keyword :: v).map Token.terminal ++ [] := by
      rw [List.append_nil, List.map_append, List.map_cons, hmodifier,
        Token.isKeyword_iff_terminal.1 hk]
    exact Control.not_derives_front (TokenStream.plain_terminals hv) begun hrun hc (hfront.map _)

theorem ends_declaration (r : Recognizer) : Ends declaration r
    ⟨fun _ r' => ∃ w header, r.cursor.Reads w r'.cursor ∧ w ≠ [] ∧ Declares r.file w header ∧
        r'.headers = r.headers ++ [header] ∧ r'.file = r.file,
      fun _ r' => r'.cursor = r.cursor ∧ r'.headers = r.headers ∧ r'.file = r.file,
      fun _ r' => ∃ w, r.cursor.Reads w r'.cursor ∧
        (∀ front : TokenStream, front <+: w → ¬front.IsDeclaration) ∧
        r'.headers = r.headers ∧ r'.file = r.file⟩ := by
  have follows := follows_declaration (r := r)
  obtain ⟨storage, r₁, modified, ending⟩ := declaration_ending r
  unfold Ends at follows ⊢
  cases hd : declaration r with
  | ok a r' =>
    rw [hd] at follows ending
    obtain ⟨w, d, hreads, hrun, hw, rfl⟩ := follows
    cases ending with
    | through completed =>
      obtain ⟨what, completed⟩ := completed
      obtain ⟨header, hdeclares, hheaders, hfile⟩ := exists_declares modified completed hreads hrun
      exact ⟨w, header, hreads, hw, hdeclares, hheaders, hfile⟩
  | error stop r' =>
    rw [hd] at follows ending
    cases stop with
    | misuse => exact follows
    | refused refusal => cases refusal with
      | recoverable error =>
        refine ⟨follows.1, ?_⟩
        cases ending with
        | idle h => exact ⟨h.headers.trans modified.headers, h.file.trans modified.file⟩
        | headed h => exact ⟨h.headers.trans modified.headers, h.file.trans modified.file⟩
      | fatal error =>
        obtain ⟨w, d, hreads, hrun, hrejects⟩ := follows
        obtain ⟨text, located⟩ := (asks_declaration trivial).located_of_refused hd
        have fault : error.located.error = .expected text r'.lookahead :=
          congrArg Located.error located
        rw [fault] at hrejects
        have hd : d ≠ .top := hrejects.2.1
        exact ⟨w, hreads, not_isDeclaration_front modified ending hreads hrun hd⟩

/-- The tokens matched so far are declarations, all of them reported with their headers, and then
these unfinished ones. -/
structure Accounted (label : String) (r : Recognizer) (unfinished : TokenStream) : Prop where
  file : r.file = label
  declarations : ∃ declarations, r.matched.toList = declarations.flatten ++ unfinished ∧
    List.Forall₂ (Declares label) declarations r.headers

namespace Accounted

variable {label header : String} {r r' : Recognizer} {declaration unfinished : TokenStream}

theorem idle (h : Accounted label r unfinished) (hi : Idle r r') :
    Accounted label r' unfinished := by
  obtain ⟨hfile, declarations, hmatched, hheaders⟩ := h
  have same : r'.matched.toList = r.matched.toList := congrArg Cursor.matched hi.cursor
  exact ⟨hi.file.trans hfile, declarations, same.trans hmatched, hi.headers ▸ hheaders⟩

/-- Tokens that are not reported are left unfinished. -/
theorem append (h : Accounted label r []) (hreads : r.cursor.Reads unfinished r'.cursor)
    (hheaders : r'.headers = r.headers) (hfile : r'.file = r.file) :
    Accounted label r' unfinished := by
  obtain ⟨hlabel, declarations, hmatched, hdeclares⟩ := h
  have matched : r'.matched.toList = r.matched.toList ++ unfinished := hreads.matched
  refine ⟨hfile.trans hlabel, declarations, ?_, hheaders ▸ hdeclares⟩
  rw [matched, hmatched, List.append_nil]

/-- A declaration that is reported is one more. -/
theorem declares (h : Accounted label r []) (hreads : r.cursor.Reads declaration r'.cursor)
    (hdeclares : Declares r.file declaration header) (hheaders : r'.headers = r.headers ++ [header])
    (hfile : r'.file = r.file) : Accounted label r' [] := by
  obtain ⟨rfl, declarations, hmatched, hall⟩ := h
  have matched : r'.matched.toList = r.matched.toList ++ declaration := hreads.matched
  refine ⟨hfile, declarations ++ [declaration], ?_, ?_⟩
  · rw [matched, hmatched, List.flatten_append, List.flatten_singleton, List.append_nil,
      List.append_nil]
  · rw [hheaders]
    exact List.rel_append hall (.cons hdeclares .nil)

end Accounted

theorem ends_declarationLoop {label : String} {r : Recognizer} (h : Accounted label r []) :
    Ends declarationLoop r
      ⟨fun _ r' => Accounted label r' [], fun _ _ => False,
        fun _ r' => ∃ unfinished, Accounted label r' unfinished ∧
          ∀ front : TokenStream, front <+: unfinished → ¬front.IsDeclaration⟩ := by
  refine ends_repeatWhile (Accounted label · []) (fun r h => ?_) h
  rw [ends_attempt, ends_within]
  have entered : Accounted label (r.enter "declaration") [] := h.idle .enter
  refine (ends_declaration (r.enter "declaration")).mono ?_ ?_ ?_
  · rintro _ r' ⟨w, header, hreads, hw, hdeclares, hheaders, hfile⟩
    exact ⟨(entered.declares hreads hdeclares hheaders hfile).idle .leave, hreads.pending_lt hw⟩
  · rintro _ r' ⟨hcursor, hheaders, hfile⟩
    have nothing : (r.enter "declaration").cursor.Reads [] r'.cursor := hcursor ▸ .refl
    exact ⟨matched_size_of_cursor_eq hcursor, (entered.append nothing hheaders hfile).idle .leave⟩
  · rintro _ r' ⟨w, hreads, hfront, hheaders, hfile⟩
    exact ⟨w, (entered.append hreads hheaders hfile).idle .leave, hfront⟩

/-- However the loop ends, what is unfinished is not a declaration with tokens behind it. -/
theorem exists_accounted {label : String} {r : Recognizer} (h : Accounted label r []) :
    ∃ unfinished, Accounted label (leaves declarationLoop r) unfinished ∧
      (∀ front : TokenStream, front <+: unfinished → ¬front.IsDeclaration) ∧
      ((∃ r', declarationLoop r = .ok () r') → unfinished = []) := by
  have ends := ends_declarationLoop h
  unfold Ends at ends
  unfold leaves
  cases hs : declarationLoop r with
  | ok _ r' =>
    rw [hs] at ends
    refine ⟨[], ends, fun front hfront hdeclaration => ?_, fun _ => rfl⟩
    rw [List.prefix_nil.1 hfront] at hdeclaration
    exact Control.ne_nil_of_derives hdeclaration rfl
  | error stop r' =>
    rw [hs] at ends
    match stop, ends with
    | .refused (.fatal _), ends =>
      obtain ⟨unfinished, accounted, hfront⟩ := ends
      exact ⟨unfinished, accounted, hfront, by rintro ⟨_, ⟨⟩⟩⟩
    | .refused (.recoverable _), ends => exact ends.elim
    | .misuse, ends => exact ends.elim

end Recog

namespace Recognizer

open Recog

/-- However a verdict ends, what is reported are the declarations among the tokens matched. -/
theorem exists_splits (tokens : TokenStream) (label : String) (verbose : Bool) :
    let fresh := ofTokens tokens label verbose
    let r := leaves recognize fresh
    ∃ declarations unfinished, TokenStream.Splits r.matched.toList declarations unfinished ∧
      List.Forall₂ (Declares label) declarations r.headers ∧
      ∀ r', recognize fresh = .ok () r' → unfinished = [] := by
  intro fresh r
  have accounted : Accounted label fresh.begun [] := .idle ⟨rfl, [], rfl, .nil⟩ idle_begun
  obtain ⟨unfinished, looped, hfront, hloop⟩ := exists_accounted accounted
  obtain ⟨idle, hok, -⟩ := recognize_idle (r := fresh) rfl
  obtain ⟨-, declarations, hmatched, hdeclares⟩ := looped.idle idle
  have declared : ∀ declaration ∈ declarations, TokenStream.IsDeclaration declaration :=
    ((List.forall₂_and_left _ _).1 (hdeclares.imp fun _ _ h => ⟨h.isDeclaration, h⟩)).1
  exact ⟨declarations, unfinished, ⟨hmatched, declared, hfront⟩, hdeclares,
    fun r' hr => hloop (hok r' hr)⟩

/-- A fresh recognizer has matched declarations in the end, and then perhaps the beginning of one
that is not finished; there is one way only to see the tokens matched as such. The declarations are
reported, in order, with the headers that they should have, and nothing else is. Accepted, all the
tokens are matched and none is left over; refused, it is the token behind them that is refused. -/
theorem headers_recognize (tokens : TokenStream) (label : String) (verbose : Bool) :
    let fresh := ofTokens tokens label verbose
    let r := leaves recognize fresh
    ∃ declarations unfinished,
      (∀ declarations' unfinished',
        TokenStream.Splits r.matched.toList declarations' unfinished' ↔
          declarations' = declarations ∧ unfinished' = unfinished) ∧
      List.Forall₂ (Declares label) declarations r.headers ∧
      r.matched.toList <+: tokens.beforeEof ∧
      (∀ r', recognize fresh = .ok () r' →
        r.matched.toList = tokens.beforeEof ∧ unfinished = []) ∧
      ∀ stop r', recognize fresh = .error stop r' →
        ∃ error, stop = .refused (.fatal error) ∧ error.found? = some r.lookahead := by
  intro fresh r
  obtain ⟨declarations, unfinished, splits, hdeclares, finished⟩ :=
    exists_splits tokens label verbose
  have unique (declarations' : List TokenStream) (unfinished' : TokenStream) :
      TokenStream.Splits r.matched.toList declarations' unfinished' ↔
        declarations' = declarations ∧ unfinished' = unfinished := by
    refine ⟨fun h => h.unique splits, ?_⟩
    rintro ⟨rfl, rfl⟩
    exact splits
  refine ⟨declarations, unfinished, unique, hdeclares, ?_⟩
  cases hr : recognize fresh with
  | ok _ r' =>
    have hr' : r = r' := leaves_of_ok hr
    obtain ⟨w, hreads, -, heof⟩ := reads_of_accepted rfl hr
    have all : r.matched.toList = tokens.beforeEof := by
      rw [beforeEof_of_reads hreads, Cursor.ahead_of_eof heof, List.append_nil, hr']
      exact hreads.matched
    refine ⟨all ▸ List.prefix_rfl, fun _ _ => ⟨all, finished r' hr⟩, ?_⟩
    rintro _ _ ⟨⟩
  | error stop r' =>
    have hr' : r = r' := leaves_of_error hr
    obtain ⟨error, w, d, rfl, hreads, -, hrejects⟩ := rejects_of_refused rfl hr
    have read : r.matched.toList = w := hr' ▸ hreads.matched
    refine ⟨⟨r'.cursor.ahead, by rw [read, beforeEof_of_reads hreads]⟩, by rintro _ ⟨⟩, ?_⟩
    rintro _ _ ⟨⟩
    exact ⟨error, rfl, hr' ▸ hrejects.found?_eq⟩

/-- The name is on the line behind its keyword, and the routine has no end. -/
example :
    let tokens : TokenStream :=
      [⟨.keyword .externKw, 1⟩, ⟨.keyword .varKw, 1⟩, ⟨.identifier "a", 2⟩,
        ⟨.punctuation .semicolon, 2⟩, ⟨.keyword .routineKw, 3⟩, ⟨.identifier "b", 3⟩]
    (leaves recognize (ofTokens tokens "a.sir" false)).headers =
      ["a.sir:2> Matched extern global variable declaration"] := by
  decide +kernel

end Recognizer
end FrontEnd
