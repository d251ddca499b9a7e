import FrontEnd.CommandLine.Run
import FrontEnd.Proofs.Scan.Course
import FrontEnd.Proofs.Token.Display
import Mathlib.Data.List.Forall2

/-!
# FrontEnd.Proofs.CommandLine.Listing

The listing of a file's tokens, and what can be read off it.

* `Text.joinLines_inj` — texts that are printed line by line can be told from what is printed.
* `CommandLine.listing_drain` — what a scan adds to a listing at the default log level: the
  tokens and nothing else.
* `CommandLine.Lists` — a command line that lists the tokens of a file; `Lists.run_eq` says what is
  printed.
* `CommandLine.listing_faithful` — the listing tells kind, text and line of every token.
-/

namespace FrontEnd

namespace Text

/-- The lines as they are printed, each with a line break at its end. -/
def joinLines (lines : List String) : String := String.join (lines.map (· ++ "\n"))

theorem toList_joinLines_cons (line : String) (lines : List String) :
    (joinLines (line :: lines)).toList = line.toList ++ '\n' :: (joinLines lines).toList := by
  simp [joinLines]

theorem lineBreaks_joinLines {lines : List String} (h : ∀ line ∈ lines, '\n' ∉ line.toList) :
    lineBreaks (joinLines lines).toList = lines.length := by
  induction lines with
  | nil => rfl
  | cons line lines ih =>
    obtain ⟨hline, hlines⟩ := List.forall_mem_cons.1 h
    have inside : lineBreaks line.toList = 0 := List.count_eq_zero.2 hline
    have behind : lineBreaks ('\n' :: (joinLines lines).toList) =
        lineBreaks (joinLines lines).toList + 1 := List.count_cons_self
    rw [toList_joinLines_cons, lineBreaks_append, inside, behind, ih hlines, Nat.zero_add,
      List.length_cons]

/-- Where no line holds a line break, what is printed tells the lines. -/
theorem joinLines_inj {lines lines' : List String} (h : ∀ line ∈ lines, '\n' ∉ line.toList)
    (h' : ∀ line ∈ lines', '\n' ∉ line.toList) (heq : joinLines lines = joinLines lines') :
    lines = lines' := by
  induction lines generalizing lines' with
  | nil =>
    cases lines' with
    | nil => rfl
    | cons line' lines' =>
      have := congrArg String.toList heq
      rw [toList_joinLines_cons] at this
      exact absurd this.symm (List.append_ne_nil_of_right_ne_nil _ (List.cons_ne_nil _ _))
  | cons line lines ih =>
    have texts := congrArg String.toList heq
    rw [toList_joinLines_cons] at texts
    obtain ⟨hline, hlines⟩ := List.forall_mem_cons.1 h
    cases lines' with
    | nil => exact absurd texts (List.append_ne_nil_of_right_ne_nil _ (List.cons_ne_nil _ _))
    | cons line' lines' =>
      rw [toList_joinLines_cons] at texts
      obtain ⟨hline', hlines'⟩ := List.forall_mem_cons.1 h'
      obtain ⟨first, others⟩ := append_cons_inj hline hline' texts
      rw [String.toList_inj.1 first, ih hlines hlines' (String.toList_inj.1 others)]

end Text

/-- A token that some source yields, one that cannot be scanned to its end included. -/
def Token.Scanned (token : Token) : Prop :=
  ∃ source verbose, token ∈ (Scanner.ofSource source verbose).drain.tokens

theorem Token.Scanned.scannable {token : Token} (h : token.Scanned) :
    token.form.Scannable ∨ token.form = .eof := by
  obtain ⟨source, verbose, hmem⟩ := h
  exact Scanner.yields_drain.scannable_of_mem token hmem

namespace CommandLine

/-- The scanner's own lines are below the default level, unless it is told to trace. -/
theorem listing_drain (line : Nat) (source : List Char) :
    listing (some .info) (Scanner.drain ⟨source, line, false, false⟩).events =
      (Scanner.drain ⟨source, line, false, false⟩).tokens.map Token.display := by
  induction hn : source.length using Nat.strongRecOn generalizing line source with
  | ind n ih =>
    subst hn
    cases source with
    | nil =>
      rw [Scanner.drain_nil]
      rfl
    | cons c rest =>
      cases hs : scan c rest with
      | error fault =>
        rw [Scanner.drain_fault hs]
        rfl
      | ok s =>
        have later := ih _ (scan_rest_lt hs) (line + Text.lineBreaks s.text) s.rest rfl
        cases hf : s.lexeme.form? with
        | some form =>
          rw [Scanner.drain_token hs hf]
          exact congrArg (Token.display ⟨form, line⟩ :: ·) later
        | none =>
          rw [Scanner.drain_skip hs hf]
          exact later

/-- The arguments ask for a listing at the default log level and without a trace, of a file whose
content scans completely, to these tokens. -/
def Lists (arguments : List String) (read : String → Except ReadFault ByteArray)
    (tokens : TokenStream) : Prop :=
  ∃ verbosity file source, parse arguments = .ok ⟨verbosity, .lex file false⟩ ∧
    verbosity.threshold = some .info ∧ sourceText (read file) = .ok source ∧
    (Scanner.ofSource source false).tokens.result = .ok tokens

section Lists

variable {arguments arguments' : List String} {read read' : String → Except ReadFault ByteArray}
  {tokens tokens' : TokenStream}

theorem Lists.run_eq (h : Lists arguments read tokens) :
    run arguments read = succeed (tokens.map Token.display) := by
  obtain ⟨verbosity, file, source, hparse, hinfo, htext, htokens⟩ := h
  obtain ⟨hdrain, hcomplete⟩ := Scanner.yields_drain.unique (Scanner.tokens_eq_ok_iff.1 htokens)
  have opened : Scanner.ofFile (read file) false = .ok ⟨source.toList, 1, false, false⟩ := by
    rw [Scanner.ofFile, htext]
    rfl
  have lists : runLex (some .info) file false (read file) =
      succeed (tokens.map Token.display) := by
    rw [runLex, opened]
    dsimp only
    rw [hcomplete, listing_drain, hdrain]
  rw [run, hparse]
  dsimp only
  rw [hinfo, runCommand, lists]
  rfl

theorem Lists.exists_source (h : Lists arguments read tokens) :
    ∃ source : String, Scanner.Yields 1 source.toList tokens none := by
  obtain ⟨verbosity, file, source, hparse, hinfo, htext, htokens⟩ := h
  exact ⟨source, Scanner.tokens_eq_ok_iff.1 htokens⟩

theorem Lists.scanned (h : Lists arguments read tokens) : ∀ token ∈ tokens, token.Scanned := by
  obtain ⟨source, yields⟩ := h.exists_source
  have drained : (Scanner.ofSource source false).drain.tokens = tokens :=
    (Scanner.yields_drain.unique yields).1
  exact fun token hmem => ⟨source, false, drained ▸ hmem⟩

theorem Lists.exists_eq_append_eof (h : Lists arguments read tokens) :
    ∃ before line, tokens = before ++ [Token.eof line] := by
  obtain ⟨source, yields⟩ := h.exists_source
  obtain ⟨before, hbefore⟩ := yields.exists_eq_append_eof
  exact ⟨before, _, hbefore⟩

theorem Lists.oneLine (h : Lists arguments read tokens) :
    ∀ line ∈ tokens.map Token.display, '\n' ∉ line.toList :=
  List.forall_mem_map.2 fun token hmem => (Token.oneLine_display (h.scanned token hmem).scannable).1

theorem Lists.eq_of_display (h : Lists arguments read tokens) (h' : Lists arguments' read' tokens')
    (heq : tokens.map Token.display = tokens'.map Token.display) : tokens = tokens' := by
  rw [← List.forall₂_eq_eq_eq, List.forall₂_map_left_iff, List.forall₂_map_right_iff,
    List.forall₂_iff_zip] at heq
  rw [← List.forall₂_eq_eq_eq, List.forall₂_iff_zip]
  refine ⟨heq.1, fun hmem => ?_⟩
  obtain ⟨hleft, hright⟩ := List.of_mem_zip hmem
  exact Token.eq_of_display_eq (h.scanned _ hleft).scannable (h'.scanned _ hright).scannable
    (heq.2 hmem)

/-- Of tokens that some source yields, each is shown on one line, which tells its line, its kind and
its text. So a listing has one line for each token of the source, the end of input included, and two
listings are the same only if the tokens are, with their lines. -/
theorem listing_faithful (h : Lists arguments read tokens) (h' : Lists arguments' read' tokens') :
    (run arguments read).status = 0 ∧
      (run arguments read).stdout = Text.joinLines (tokens.map Token.display) ∧
      Text.lineBreaks (run arguments read).stdout.toList = tokens.length ∧
      (∃ before line, tokens = before ++ [Token.eof line]) ∧
      ((run arguments read).stdout = (run arguments' read').stdout ↔
        List.Forall₂ (fun a b => a.kind = b.kind ∧ a.text = b.text ∧ a.line = b.line)
          tokens tokens') ∧
      ∀ a b : Token, a.Scanned → b.Scanned →
        Text.OneLine a.display.toList ∧
          (a.display = b.display → a.line = b.line ∧ a.kind = b.kind ∧ a.text = b.text) := by
  have stdout : (run arguments read).stdout = Text.joinLines (tokens.map Token.display) := by
    rw [h.run_eq]
    rfl
  have stdout' : (run arguments' read').stdout = Text.joinLines (tokens'.map Token.display) := by
    rw [h'.run_eq]
    rfl
  refine ⟨by rw [h.run_eq]; rfl, stdout, ?_, h.exists_eq_append_eof, ?_, fun a b ha hb =>
    ⟨Token.oneLine_display ha.scannable, fun hdisplay => ?_⟩⟩
  · rw [stdout, Text.lineBreaks_joinLines h.oneLine, List.length_map]
  · rw [stdout, stdout']
    have alike : (fun a b : Token => a.kind = b.kind ∧ a.text = b.text ∧ a.line = b.line) = Eq :=
      funext₂ fun a b => propext Token.eq_iff.symm
    rw [alike, List.forall₂_eq_eq_eq]
    constructor
    · exact fun heq => h.eq_of_display h' (Text.joinLines_inj h.oneLine h'.oneLine heq)
    · rintro rfl
      rfl
  · rw [Token.eq_of_display_eq ha.scannable hb.scannable hdisplay]
    exact ⟨rfl, rfl, rfl⟩

end Lists

/-- A line break inside a string and one written as a code and again behind the string: the tokens
and their lines are the same. -/
theorem listing_faithful_line_break_in_string :
    let tokens : TokenStream := [⟨.string "a\nb", 1⟩, ⟨.identifier "c", 2⟩, ⟨.eof, 2⟩]
    let broken : String → Except ReadFault ByteArray := fun _ => .ok "\"a\nb\" c".toUTF8
    let escaped : String → Except ReadFault ByteArray := fun _ => .ok "\"a\\nb\"\nc".toUTF8
    Lists ["lex", "a"] broken tokens ∧ Lists ["lex", "a"] escaped tokens ∧
      (run ["lex", "a"] broken).stdout = (run ["lex", "a"] escaped).stdout ∧
      (run ["lex", "a"] broken).stdout =
        "1:(STRING, \"a\\nb\")\n2:(IDENTIFIER, c)\n2:(EOF, )\n" := by
  intro tokens broken escaped
  have first : Lists ["lex", "a"] broken tokens :=
    ⟨.neutral, "a", "\"a\nb\" c", rfl, rfl, by decide +kernel, by decide +kernel⟩
  have second : Lists ["lex", "a"] escaped tokens :=
    ⟨.neutral, "a", "\"a\\nb\"\nc", rfl, rfl, by decide +kernel, by decide +kernel⟩
  obtain ⟨-, printed, -, -, same, -⟩ := listing_faithful first second
  refine ⟨first, second, same.2 (List.forall₂_same.2 fun _ _ => ⟨rfl, rfl, rfl⟩), printed.trans ?_⟩
  decide +kernel

end CommandLine
end FrontEnd
