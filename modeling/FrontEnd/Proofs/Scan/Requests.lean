import FrontEnd.Proofs.Scan.Concatenation
import FrontEnd.Proofs.Scan.Course
import FrontEnd.Proofs.Scan.RoundTrip

/-!
# FrontEnd.Proofs.Scan.Requests

What the scanner answers when it is asked again and again.

* `Scanner.item` — the answer to one of the requests.
* `Scanner.item_of_finished` — a scanner that has finished answers nothing, for ever.
* `Scanner.Yields.item_eq` — the answers are the tokens of the run in order, then its error if there
  is one, then nothing.
* `Scanner.Yields.exists_before` — only the last of the tokens can be an end of input, and each of
  the others takes a character at least.
* `Scanner.requests_end` — so the answers end with one end of input or with one error, and the
  source scanned as a whole gives the same.
-/

namespace FrontEnd
namespace Scanner

/-- The answer to the request number `n`, from 0 on. -/
def item (scanner : Scanner) (n : Nat) : Option (Except ScanError Token) :=
  (scanner.after n).next.item

theorem item_zero {scanner : Scanner} : scanner.item 0 = scanner.next.item := rfl

theorem item_succ {scanner : Scanner} {n : Nat} :
    scanner.item (n + 1) = scanner.next.scanner.item n := rfl

theorem item_of_finished {scanner : Scanner} (h : scanner.finished = true) (n : Nat) :
    scanner.item n = none := by
  have next_eq : scanner.next = ⟨none, scanner, []⟩ := if_pos h
  induction n with
  | zero => rw [item_zero, next_eq]
  | succ n ih => rw [item_succ, next_eq, ih]

/-- One answer is given, and the scanner has finished. -/
theorem item_of_last {scanner : Scanner} {last : Except ScanError Token}
    (h : scanner.next.item = some last) (hfinished : scanner.next.scanner.finished = true)
    (n : Nat) : scanner.item n = [last][n]? := by
  cases n with
  | zero => exact h
  | succ n => rw [item_succ, item_of_finished hfinished]; rfl

namespace Yields

variable {verbose : Bool} {line : Nat} {source : List Char} {tokens : TokenStream}
  {error? : Option ScanError}

theorem item_eq (h : Yields line source tokens error?) (n : Nat) :
    item ⟨source, line, verbose, false⟩ n =
      (tokens.map Except.ok ++ error?.toList.map Except.error)[n]? := by
  induction h generalizing n with
  | finish =>
    refine item_of_last ?_ ?_ n <;> rw [next_unfinished, read_nil]
  | fault hs =>
    refine item_of_last ?_ ?_ n <;> rw [next_unfinished, read_error hs]
  | @token line c rest s form _ _ hs hf _ ih =>
    have ht : s.lexeme.token? line = some ⟨form, line⟩ := by rw [Lexeme.token?, hf]; rfl
    have next_eq : next ⟨c :: rest, line, verbose, false⟩ = _ :=
      next_unfinished.trans (read_token hs ht)
    cases n with
    | zero => rw [item_zero, next_eq]; rfl
    | succ n => rw [item_succ, next_eq, ih]; rfl
  | @skip line c rest s _ _ hs hf _ ih =>
    -- the request is answered as if the source began behind the lexeme
    have ht : s.lexeme.token? line = none := by rw [Lexeme.token?, hf]; rfl
    have next_eq : next ⟨c :: rest, line, verbose, false⟩ = _ :=
      next_unfinished.trans (read_insignificant hs ht)
    rw [← ih]
    cases n with
    | zero => rw [item_zero, item_zero, next_eq, next_unfinished]
    | succ n => rw [item_succ, item_succ, next_eq, next_unfinished]

/-- In front of the end of input, or of the error, no token is an end of input, and there are no
more tokens than characters. -/
theorem exists_before (h : Yields line source tokens error?) :
    ∃ before : TokenStream, (∀ token ∈ before, token.kind ≠ .eof) ∧
      before.length ≤ source.length ∧
      ((error? = none ∧ ∃ last, tokens = before ++ [Token.eof last]) ∨
        error?.isSome ∧ tokens = before) := by
  induction h with
  | @finish line => exact ⟨[], nofun, Nat.zero_le _, .inl ⟨rfl, line, rfl⟩⟩
  | fault => exact ⟨[], nofun, Nat.zero_le _, .inr ⟨rfl, rfl⟩⟩
  | @token line c rest s form _ _ hs hf _ ih =>
    obtain ⟨before, hbefore, hlength, hends⟩ := ih
    have scannable := (Lexeme.regular_of_firstMatch (scan_eq_iff_firstMatch.1 hs)).scannable
      (Lexeme.form?_eq_iff_makes.1 hf)
    have shorter := scan_rest_lt hs
    refine ⟨⟨form, line⟩ :: before, List.forall_mem_cons.2 ⟨scannable.kind_ne_eof, hbefore⟩,
      Nat.lt_of_le_of_lt hlength shorter, ?_⟩
    rcases hends with ⟨hnone, last, rfl⟩ | ⟨hsome, rfl⟩
    · exact .inl ⟨hnone, last, rfl⟩
    · exact .inr ⟨hsome, rfl⟩
  | skip hs _ _ ih =>
    obtain ⟨before, hbefore, hlength, hends⟩ := ih
    exact ⟨before, hbefore, Nat.le_trans hlength (Nat.le_of_lt (scan_rest_lt hs)), hends⟩

end Yields

/-- The answers to all requests are first tokens, none of them an end of input and no more than
there are characters, then either one end of input or one error, then nothing, however often the
scanner is asked. The source scanned as a whole gives these tokens with the end of input, or else
this error. -/
theorem requests_end (source : String) (verbose : Bool) :
    let start := ofSource source verbose
    ∃ before : TokenStream, (∀ token ∈ before, token.kind ≠ .eof) ∧
      before.length ≤ source.length ∧
      ((∃ last, (∀ n, start.item n = (before.map .ok ++ [.ok (Token.eof last)])[n]?) ∧
          start.tokens.result = .ok (before ++ [Token.eof last])) ∨
        ∃ error, (∀ n, start.item n = (before.map .ok ++ [.error error])[n]?) ∧
          start.tokens.result = .error error) := by
  intro start
  have yields : Yields 1 source.toList start.drain.tokens start.drain.error? := yields_drain
  have answers (n : Nat) : start.item n =
      (start.drain.tokens.map .ok ++ start.drain.error?.toList.map .error)[n]? := yields.item_eq n
  obtain ⟨before, hbefore, hlength, hends⟩ := yields.exists_before
  refine ⟨before, hbefore, String.length_toList ▸ hlength, ?_⟩
  rcases hends with ⟨hnone, last, htokens⟩ | ⟨hsome, htokens⟩
  · rw [hnone, htokens] at yields
    refine .inl ⟨last, fun n => ?_, tokens_eq_ok_iff.2 yields⟩
    rw [answers, hnone, htokens, List.map_append, Option.toList_none, List.map_nil,
      List.append_nil]
    rfl
  · obtain ⟨error, herror⟩ := Option.isSome_iff_exists.1 hsome
    refine .inr ⟨error, fun n => ?_, tokens_eq_error_iff.2 herror⟩
    rw [answers, herror, htokens]
    rfl

end Scanner
end FrontEnd
