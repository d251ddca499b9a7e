import FrontEnd.Log
import FrontEnd.Scan.Error
import FrontEnd.Scan.Tiling
import FrontEnd.Token.Stream

/-!
# FrontEnd.Scan.Scanner

The scanner: source text in, tokens out, one at a time.

* `Scanner` — the source not yet scanned and the line it begins on.
* `Scanner.next` — the next token, past everything insignificant. After the source comes one
  end of input; after that, or after an error, comes nothing more.
* `Scanner.drain` — all tokens up to the end or an error.
* `Scanner.tokens` — all tokens, or the error.
* `ScanEvent` — what the scanner reports about its work.
-/

namespace FrontEnd

/-- What the scanner reports: each lexeme it reads, each token it yields, and how many there
were once all went well. -/
inductive ScanEvent where
  | lexeme (line : Nat) (text : List Char) (lexeme : Lexeme)
  | token (verbose : Bool) (token : Token)
  | total (count : Nat)

namespace ScanEvent

def level : ScanEvent → Level
  | lexeme .. => .trace
  | token true _ => .info
  | token false _ => .trace
  | total _ => .debug

def message : ScanEvent → String
  | lexeme line text found =>
    toString line ++ ": " ++ Text.quote (String.ofList text) ++ " -> " ++ found.debug
  | token true found => found.display
  | token false found => "scanned " ++ found.display
  | total count => "scanned " ++ toString count ++ " tokens"

def logLine (event : ScanEvent) : LogLine := ⟨event.level, .scanner, event.message⟩

end ScanEvent

structure Scanner where
  rest : List Char
  line : Nat
  /-- Whether every token is reported openly and not only traced. -/
  verbose : Bool
  finished : Bool

namespace Scanner

def ofSource (source : String) (verbose : Bool) : Scanner :=
  ⟨source.toList, 1, verbose, false⟩

/-- What one request to the scanner gives: perhaps a token or an error, the scanner afterwards,
and what it reported. -/
structure Pull where
  item : Option (Except ScanError Token)
  scanner : Scanner
  events : List ScanEvent

/-- The next token of the source that begins on `line`, past all insignificant lexemes. -/
def read (verbose : Bool) (line : Nat) : List Char → Pull
  | [] =>
    let token := Token.eof line
    ⟨some (.ok token), ⟨[], line, verbose, true⟩, [.token verbose token]⟩
  | c :: rest =>
    match _hs : scan c rest with
    | .error fault => ⟨some (.error (fault.atLine line)), ⟨c :: rest, line, verbose, true⟩, []⟩
    | .ok scan =>
      let event := ScanEvent.lexeme line scan.text scan.lexeme
      let after := line + Text.lineBreaks scan.text
      match scan.lexeme.token? line with
      | some token =>
        ⟨some (.ok token), ⟨scan.rest, after, verbose, false⟩, [event, .token verbose token]⟩
      | none =>
        let pull := read verbose after scan.rest
        { pull with events := event :: pull.events }
termination_by source => source.length
decreasing_by exact scan_rest_lt _hs

def next (scanner : Scanner) : Pull :=
  if scanner.finished then ⟨none, scanner, []⟩
  else read scanner.verbose scanner.line scanner.rest

theorem read_nil {verbose : Bool} {line : Nat} :
    read verbose line [] =
      ⟨some (.ok (Token.eof line)), ⟨[], line, verbose, true⟩,
        [.token verbose (Token.eof line)]⟩ := by
  rw [read]

theorem read_error {verbose : Bool} {line : Nat} {c : Char} {rest : List Char}
    {fault : ScanFault} (h : scan c rest = .error fault) :
    read verbose line (c :: rest) =
      ⟨some (.error (fault.atLine line)), ⟨c :: rest, line, verbose, true⟩, []⟩ := by
  rw [read]
  split
  · rename_i h'
    cases h.symm.trans h'
    rfl
  · rename_i h'
    cases h.symm.trans h'

theorem read_token {verbose : Bool} {line : Nat} {c : Char} {rest : List Char} {s : Scan}
    {token : Token} (h : scan c rest = .ok s) (ht : s.lexeme.token? line = some token) :
    read verbose line (c :: rest) =
      ⟨some (.ok token), ⟨s.rest, line + Text.lineBreaks s.text, verbose, false⟩,
        [.lexeme line s.text s.lexeme, .token verbose token]⟩ := by
  rw [read]
  split
  · rename_i h'
    cases h.symm.trans h'
  · rename_i h'
    cases h.symm.trans h'
    simp only [ht]

theorem read_insignificant {verbose : Bool} {line : Nat} {c : Char} {rest : List Char}
    {s : Scan} (h : scan c rest = .ok s) (ht : s.lexeme.token? line = none) :
    read verbose line (c :: rest) =
      { read verbose (line + Text.lineBreaks s.text) s.rest with
        events := .lexeme line s.text s.lexeme ::
          (read verbose (line + Text.lineBreaks s.text) s.rest).events } := by
  rw [read]
  split
  · rename_i h'
    cases h.symm.trans h'
  · rename_i h'
    cases h.symm.trans h'
    simp only [ht]

/-- How many more characters and ends of input the scanner can take. -/
def remaining (scanner : Scanner) : Nat :=
  if scanner.finished then 0 else scanner.rest.length + 1

theorem remaining_read_le {verbose : Bool} {line : Nat} {source : List Char} :
    (read verbose line source).scanner.remaining ≤ source.length := by
  induction hn : source.length using Nat.strongRecOn generalizing line source with
  | ind n ih =>
    cases source with
    | nil => simp [read_nil, remaining]
    | cons c rest =>
      cases hs : scan c rest with
      | error fault => simp [read_error hs, remaining]
      | ok s =>
        have shorter := scan_rest_lt hs
        cases ht : s.lexeme.token? line with
        | some token =>
          rw [read_token hs ht]
          exact hn ▸ shorter
        | none =>
          rw [read_insignificant hs ht]
          exact Nat.le_of_lt (Nat.lt_of_le_of_lt (ih _ (hn ▸ shorter) rfl) (hn ▸ shorter))

/-- A request that gives something takes something off what remains. -/
theorem remaining_next_lt {scanner : Scanner} {item : Except ScanError Token}
    (h : scanner.next.item = some item) :
    scanner.next.scanner.remaining < scanner.remaining := by
  unfold next at h ⊢
  split at h
  · cases h
  · rename_i hf
    rw [if_neg hf]
    have : scanner.remaining = scanner.rest.length + 1 := if_neg hf
    rw [this]
    exact Nat.lt_succ_of_le remaining_read_le

/-- Everything a scanner gives until it has no more. -/
structure Drain where
  tokens : TokenStream
  error? : Option ScanError
  /-- The scanner afterwards. -/
  scanner : Scanner
  events : List ScanEvent

def drain (scanner : Scanner) : Drain :=
  match _h : scanner.next with
  | ⟨none, after, events⟩ => ⟨[], none, after, events⟩
  | ⟨some (.error error), after, events⟩ => ⟨[], some error, after, events⟩
  | ⟨some (.ok token), after, events⟩ =>
    let later := drain after
    { later with
      tokens := token :: later.tokens
      events := events ++ later.events }
termination_by scanner.remaining
decreasing_by
  have taken : scanner.next.item = some (.ok token) := by rw [_h]
  have := remaining_next_lt taken
  rw [_h] at this
  exact this

/-- What scanning a whole source comes to, with everything reported on the way. -/
structure Outcome where
  result : Except ScanError TokenStream
  events : List ScanEvent

/-- All tokens of the source, the end of input included, or the error that is met first. -/
def tokens (scanner : Scanner) : Outcome :=
  let drained := scanner.drain
  match drained.error? with
  | some error => ⟨.error error, drained.events⟩
  | none => ⟨.ok drained.tokens, drained.events ++ [.total drained.tokens.length]⟩

end Scanner

end FrontEnd
