import FrontEnd.Proofs.AtEach
import FrontEnd.Proofs.Scan.Yields

/-!
# FrontEnd.Proofs.Scan.Course

Where the scanner stands at every point of its run, and on which line.

* `ScanEvent.covered` — the source text that events report as read.
* `ScanEvent.Exact` — an event is true of the place where the events before it leave off.
* `Scanner.after`, `Scanner.reported` — the scanner after some requests, and its reports so far.
* `Scanner.Course source events line rest` — a point of a run: what was reported, the counter of
  lines and what is still to be scanned. Every operation of the scanner goes on from one point to
  another (`Course.read`, `Course.next`, `Course.after`).
* `Scanner.lexemes_tile_source` — so at every point the lexemes make up the source passed, and
  the counter tells its line breaks.
-/

namespace FrontEnd

namespace ScanEvent

/-- The text of a lexeme read. -/
def text : ScanEvent → List Char
  | lexeme _ text _ => text
  | token _ _ | total _ => []

def token? : ScanEvent → Option Token
  | token _ found => some found
  | lexeme .. | total _ => none

/-- The texts of all lexemes read, joined in their order. -/
def covered (events : List ScanEvent) : List Char := events.flatMap text

/-- The event is true behind the events before it. A lexeme is not empty, it is what the scanner
takes off the rest of the source, and its line is the one on which that rest begins. A token
comes right behind its lexeme and has the line of the lexeme's beginning; the end of input comes
behind the whole source and has its last line. -/
def Exact (source : List Char) (before : List ScanEvent) : ScanEvent → Prop
  | lexeme line text found =>
    text ≠ [] ∧ line = 1 + Text.lineBreaks (covered before) ∧
      ∃ c rest after, source = covered before ++ c :: rest ∧ scan c rest = .ok ⟨found, text, after⟩
  | token _ found =>
    (∃ earlier text read, before = earlier ++ [.lexeme found.line text read] ∧
      read.token? found.line = some found ∧
      found.line = 1 + Text.lineBreaks (covered earlier)) ∨
    found = Token.eof (1 + Text.lineBreaks source) ∧ covered before = source
  | total _ => False

@[simp] theorem covered_nil : covered [] = [] := rfl

@[simp] theorem covered_append (a b : List ScanEvent) :
    covered (a ++ b) = covered a ++ covered b := List.flatMap_append

@[simp] theorem covered_lexeme {line : Nat} {text : List Char} {found : Lexeme} :
    covered [lexeme line text found] = text := List.append_nil _

@[simp] theorem covered_token {verbose : Bool} {found : Token} :
    covered [token verbose found] = [] := rfl

end ScanEvent

namespace Scanner

open ScanEvent (covered)

/-- The scanner after so many requests. -/
def after (scanner : Scanner) : Nat → Scanner
  | 0 => scanner
  | n + 1 => scanner.next.scanner.after n

/-- What the scanner reports during so many requests. -/
def reported (scanner : Scanner) : Nat → List ScanEvent
  | 0 => []
  | n + 1 => scanner.next.events ++ scanner.next.scanner.reported n

/-- The points of a run over the source, each with the events up to it, the counter of lines and
the source not yet passed. -/
inductive Course (source : List Char) : List ScanEvent → Nat → List Char → Prop
  | start : Course source [] 1 source
  | lexeme {events : List ScanEvent} {line : Nat} {c : Char} {rest : List Char} {s : Scan} :
    Course source events line (c :: rest) → scan c rest = .ok s →
    Course source (events ++ [.lexeme line s.text s.lexeme]) (line + Text.lineBreaks s.text)
      s.rest
  | token {earlier : List ScanEvent} {found : Lexeme} {text rest : List Char} {line : Nat}
      {token : Token} {verbose : Bool} :
    Course source (earlier ++ [.lexeme token.line text found]) line rest →
    found.token? token.line = some token →
    Course source (earlier ++ [.lexeme token.line text found] ++ [.token verbose token]) line rest
  | finish {events : List ScanEvent} {line : Nat} {verbose : Bool} :
    Course source events line [] →
    Course source (events ++ [.token verbose (Token.eof line)]) line []

namespace Course

variable {source rest : List Char} {events : List ScanEvent} {line : Nat}

theorem tiles (h : Course source events line rest) : covered events ++ rest = source := by
  induction h with
  | start => rfl
  | lexeme _ hs ih =>
    rw [ScanEvent.covered_append, ScanEvent.covered_lexeme, List.append_assoc,
      (scan_tiles hs).2, ih]
  | token _ _ ih => rw [ScanEvent.covered_append, ScanEvent.covered_token, List.append_nil, ih]
  | finish _ ih =>
    rw [ScanEvent.covered_append, ScanEvent.covered_token, List.append_nil, ih]

theorem line_eq (h : Course source events line rest) :
    line = 1 + Text.lineBreaks (covered events) := by
  induction h with
  | start => rfl
  | lexeme _ hs ih =>
    rw [ScanEvent.covered_append, ScanEvent.covered_lexeme, Text.lineBreaks_append, ih,
      Nat.add_assoc]
  | token _ _ ih => rw [ScanEvent.covered_append, ScanEvent.covered_token, List.append_nil, ← ih]
  | finish _ ih =>
    rw [ScanEvent.covered_append, ScanEvent.covered_token, List.append_nil, ← ih]

/-- Every event on the way was true where it was reported. -/
theorem exact (h : Course source events line rest) :
    AtEach (fun before event => event.Exact source before) events := by
  induction h with
  | start => exact atEach_nil
  | lexeme h hs ih =>
    exact atEach_append_singleton.2
      ⟨ih, (scan_tiles hs).1, h.line_eq, _, _, _, h.tiles.symm, hs⟩
  | token h ht ih =>
    have lexeme := ih _ _ [] rfl
    exact atEach_append_singleton.2 ⟨ih, Or.inl ⟨_, _, _, rfl, ht, lexeme.2.1⟩⟩
  | finish h ih =>
    have whole := h.tiles
    rw [List.append_nil] at whole
    refine atEach_append_singleton.2 ⟨ih, Or.inr ⟨?_, whole⟩⟩
    rw [h.line_eq, whole]

/-- The induction is on the source, which every scan makes shorter. -/
theorem read {verbose : Bool} (h : Course source events line rest) :
    Course source (events ++ (read verbose line rest).events)
      (read verbose line rest).scanner.line (read verbose line rest).scanner.rest := by
  induction hn : rest.length using Nat.strongRecOn generalizing events line rest with
  | ind n ih =>
    subst hn
    cases rest with
    | nil =>
      rw [read_nil]
      exact .finish h
    | cons c rest =>
      cases hs : scan c rest with
      | error fault =>
        rw [read_error hs, List.append_nil]
        exact h
      | ok s =>
        cases ht : s.lexeme.token? line with
        | some token =>
          obtain rfl : token.line = line := by
            obtain ⟨form, -, rfl⟩ := Option.map_eq_some_iff.1 ht
            rfl
          rw [read_token hs ht, ← List.singleton_append, ← List.append_assoc]
          exact .token (.lexeme h hs) ht
        | none =>
          rw [read_insignificant hs ht, ← List.singleton_append, ← List.append_assoc]
          exact ih _ (scan_rest_lt hs) (.lexeme h hs) rfl

theorem next {scanner : Scanner} (h : Course source events scanner.line scanner.rest) :
    Course source (events ++ scanner.next.events) scanner.next.scanner.line
      scanner.next.scanner.rest := by
  rw [Scanner.next]
  split
  · rwa [List.append_nil]
  · exact h.read

theorem after {scanner : Scanner} (n : Nat)
    (h : Course source events scanner.line scanner.rest) :
    Course source (events ++ scanner.reported n) (scanner.after n).line
      (scanner.after n).rest := by
  induction n generalizing events scanner with
  | zero =>
    rw [reported, List.append_nil]
    exact h
  | succ n ih =>
    rw [reported, ← List.append_assoc]
    exact ih h.next

end Course

/-- A run to the end is so many requests. -/
theorem exists_reported_eq_drain (scanner : Scanner) :
    ∃ n, scanner.drain.events = scanner.reported n ∧ scanner.drain.scanner = scanner.after n := by
  induction scanner using drain.induct with
  | case1 scanner after events h =>
    refine ⟨1, ?_, ?_⟩ <;> rw [drain_of_next, h] <;> simp [reported, Scanner.after, h]
  | case2 scanner error after events h =>
    refine ⟨1, ?_, ?_⟩ <;> rw [drain_of_next, h] <;> simp [reported, Scanner.after, h]
  | case3 scanner token after events h ih =>
    obtain ⟨n, hevents, hscanner⟩ := ih
    refine ⟨n + 1, ?_, ?_⟩ <;> rw [drain_of_next, h] <;>
      simp [reported, Scanner.after, h, hevents, hscanner]

namespace Yields

variable {verbose : Bool} {line : Nat} {source : List Char} {tokens : TokenStream}
  {error? : Option ScanError}

/-- The tokens yielded are those reported. -/
theorem eq_filterMap_events (h : Yields line source tokens error?) :
    tokens = (drain ⟨source, line, verbose, false⟩).events.filterMap ScanEvent.token? := by
  induction h with
  | finish =>
    rw [drain_nil]
    rfl
  | fault hs =>
    rw [drain_fault hs]
    rfl
  | token hs hf _ ih =>
    rw [drain_token hs hf]
    exact congrArg (_ :: ·) ih
  | skip hs hf _ ih =>
    rw [drain_skip hs hf]
    exact ih

theorem rest_eq_nil (h : Yields line source tokens none) :
    (drain ⟨source, line, verbose, false⟩).scanner.rest = [] := by
  generalize he : (none : Option ScanError) = error? at h
  induction h with
  | finish => rw [drain_nil]
  | fault => cases he
  | token hs hf _ ih =>
    rw [drain_token hs hf]
    exact ih he
  | skip hs hf _ ih =>
    rw [drain_skip hs hf]
    exact ih he

theorem line_le (h : Yields line source tokens error?) : ∀ token ∈ tokens, line ≤ token.line := by
  induction h with
  | finish => simp [Token.eof]
  | fault => simp
  | token _ _ _ ih =>
    refine List.forall_mem_cons.2 ⟨Nat.le_refl _, fun token ht => ?_⟩
    exact Nat.le_trans (Nat.le_add_right _ _) (ih token ht)
  | skip _ _ _ ih => exact fun token ht => Nat.le_trans (Nat.le_add_right _ _) (ih token ht)

theorem lines_ascend (h : Yields line source tokens error?) :
    tokens.Pairwise (·.line ≤ ·.line) := by
  induction h with
  | finish => exact List.pairwise_singleton _ _
  | fault => exact .nil
  | token _ _ later ih =>
    refine .cons (fun token ht => ?_) ih
    exact Nat.le_trans (Nat.le_add_right _ _) (later.line_le token ht)
  | skip _ _ _ ih => exact ih

/-- The end of input comes last, on the last line of the source. -/
theorem exists_eq_append_eof (h : Yields line source tokens none) :
    ∃ before, tokens = before ++ [Token.eof (line + Text.lineBreaks source)] := by
  generalize he : (none : Option ScanError) = error? at h
  induction h with
  | finish => exact ⟨[], rfl⟩
  | fault => cases he
  | token hs _ _ ih =>
    obtain ⟨before, rfl⟩ := ih he
    rw [← (scan_tiles hs).2, Text.lineBreaks_append, ← Nat.add_assoc]
    exact ⟨_ :: before, rfl⟩
  | skip hs _ _ ih =>
    obtain ⟨before, rfl⟩ := ih he
    rw [← (scan_tiles hs).2, Text.lineBreaks_append, ← Nat.add_assoc]
    exact ⟨before, rfl⟩

end Yields

/-- At every point of a run the lexemes scanned make up the source passed, and the counter is one
more than the line breaks in it; every event is true where it is reported, so every token has the
line on which it begins. The tokens yielded are the tokens reported, on lines that never descend;
and where all goes well the lexemes make up the whole source and the end of input comes last, on
the last line. -/
theorem lexemes_tile_source (source : String) (verbose : Bool) :
    let start := ofSource source verbose
    (∀ n,
      covered (start.reported n) ++ (start.after n).rest = source.toList ∧
      (start.after n).line = 1 + Text.lineBreaks (covered (start.reported n)) ∧
      ∀ before event later, start.reported n = before ++ event :: later →
        event.Exact source.toList before) ∧
    (∃ n, start.drain.events = start.reported n) ∧
    start.drain.tokens = start.drain.events.filterMap ScanEvent.token? ∧
    start.drain.tokens.Pairwise (·.line ≤ ·.line) ∧
    ∀ tokens, start.tokens.result = .ok tokens →
      tokens = start.drain.tokens ∧
      covered start.drain.events = source.toList ∧
      tokens.getLast? = some (Token.eof (1 + Text.lineBreaks source.toList)) := by
  intro start
  have yields : Yields 1 source.toList start.drain.tokens start.drain.error? := yields_drain
  have course (n : Nat) : Course source.toList (start.reported n) (start.after n).line
      (start.after n).rest := by
    have behind_nothing : Course source.toList ([] ++ start.reported n) _ _ := .after n .start
    exact behind_nothing
  obtain ⟨n, hevents, hscanner⟩ := exists_reported_eq_drain start
  refine ⟨fun n => ⟨(course n).tiles, (course n).line_eq, (course n).exact⟩, ⟨n, hevents⟩,
    yields.eq_filterMap_events, yields.lines_ascend, fun tokens htokens => ?_⟩
  have success := tokens_eq_ok_iff.1 htokens
  have hrest : (start.after n).rest = [] := hscanner ▸ success.rest_eq_nil
  have tiles := (course n).tiles
  rw [hrest, List.append_nil, ← hevents] at tiles
  obtain ⟨before, rfl⟩ := success.exists_eq_append_eof
  exact ⟨(success.unique yields).1, tiles, List.getLast?_concat⟩

/-- A string over two lines has the line of its opening quote, and `b` the line of the closing
one. -/
theorem lexemes_tile_source_string_over_lines :
    let start := ofSource "a\n\"\n\"b" false
    let tokens : TokenStream :=
      [⟨.identifier "a", 1⟩, ⟨.string "\n", 2⟩, ⟨.identifier "b", 3⟩, ⟨.eof, 3⟩]
    let before : List ScanEvent :=
      [.lexeme 1 ['a'] (.word "a"), .token false ⟨.identifier "a", 1⟩,
        .lexeme 1 ['\n'] .insignificant, .lexeme 2 ['"', '\n', '"'] (.string "\n")]
    start.reported 2 = before ++ .token false ⟨.string "\n", 2⟩ :: [] ∧
      (ScanEvent.token false ⟨.string "\n", 2⟩).Exact ['a', '\n', '"', '\n', '"', 'b'] before ∧
      start.tokens.result = .ok tokens ∧ tokens = start.drain.tokens ∧
      covered start.drain.events = ['a', '\n', '"', '\n', '"', 'b'] ∧
      tokens.getLast? = some (Token.eof 3) := by
  intro start tokens before
  have reported_two : start.reported 2 = before ++ .token false ⟨.string "\n", 2⟩ :: [] := by
    have word : scan 'a' ['\n', '"', '\n', '"', 'b'] =
        .ok ⟨.word "a", ['a'], ['\n', '"', '\n', '"', 'b']⟩ := rfl
    have layout : scan '\n' ['"', '\n', '"', 'b'] =
        .ok ⟨.insignificant, ['\n'], ['"', '\n', '"', 'b']⟩ := rfl
    have string : scan '"' ['\n', '"', 'b'] =
        .ok ⟨.string "\n", ['"', '\n', '"'], ['b']⟩ := rfl
    have first : start.next = ⟨some (.ok ⟨.identifier "a", 1⟩),
        ⟨['\n', '"', '\n', '"', 'b'], 1, false, false⟩, before.take 2⟩ := read_token word rfl
    have second : next ⟨['\n', '"', '\n', '"', 'b'], 1, false, false⟩ = _ :=
      (read_insignificant layout rfl).trans (by rw [read_token string rfl])
    simp only [reported, first, second]
    rfl
  have yields : Yields 1 ['a', '\n', '"', '\n', '"', 'b'] tokens none :=
    .token rfl rfl (.skip rfl rfl (.token rfl rfl (.token rfl rfl .finish)))
  have scanned : start.tokens.result = .ok tokens := tokens_eq_ok_iff.2 yields
  obtain ⟨points, -, -, -, success⟩ := lexemes_tile_source "a\n\"\n\"b" false
  exact ⟨reported_two, (points 2).2.2 _ _ _ reported_two, scanned, success tokens scanned⟩

end Scanner
end FrontEnd
