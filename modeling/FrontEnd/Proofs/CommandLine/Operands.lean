import FrontEnd.CommandLine.Run
import FrontEnd.Proofs.Infix.Conservation
import FrontEnd.Proofs.Infix.Parentheses
import Mathlib.Data.List.DropRight

/-!
# FrontEnd.Proofs.CommandLine.Operands

An expression on the command line.

* `Infix.trimEnd_spaced` — the answer as it is printed: its tokens with one blank between any two.
* `Infix.exists_resolve_iff` — tokens have an answer exactly if their parentheses match.
* `CommandLine.parse_operands` — from an operand that begins with no hyphen on, all arguments are
  the expression, whatever they look like.
* `CommandLine.run_operands` — what is printed for it, and when nothing is.
-/

namespace FrontEnd

namespace Infix

/-- A blank behind each word is a blank between any two, and one at the end. -/
theorem toList_spaced {words : List String} (hne : words ≠ []) :
    (spaced words).toList = (" ".intercalate words).toList ++ [' '] := by
  induction words with
  | nil => exact absurd rfl hne
  | cons word words ih =>
    cases words with
    | nil => simp [spaced]
    | cons next words =>
      have later := ih (List.cons_ne_nil _ _)
      simp only [spaced, List.map_cons, String.join_cons, String.toList_append] at later ⊢
      rw [later]
      simp

/-- Words with blanks between them end as the last word does. -/
theorem getLast?_intercalate {words : List String}
    (h : ∀ word ∈ words, Text.Unbroken word) :
    ∀ c ∈ (" ".intercalate words).toList.getLast?, Text.isBlank c = false := by
  induction words with
  | nil =>
    simp
  | cons word words ih =>
    obtain ⟨hword, hwords⟩ := List.forall_mem_cons.1 h
    cases words with
    | nil =>
      intro c hc
      rw [String.intercalate_singleton] at hc
      exact hword.not_blank c (List.mem_of_getLast? hc)
    | cons next words =>
      have hnext : next ≠ "" := (hwords next List.mem_cons_self).ne_empty
      have hne : (" ".intercalate (next :: words)).toList ≠ [] := by
        cases words <;> simp [hnext]
      rw [String.intercalate_cons_cons, String.toList_append, List.getLast?_append_of_ne_nil _ hne]
      exact ih hwords

theorem trimEnd_spaced {words : List String} (h : ∀ word ∈ words, Text.Unbroken word) :
    Text.trimEnd (spaced words) = " ".intercalate words := by
  have trimmed : Text.trimEnd (spaced words) =
      String.ofList ((spaced words).toList.rdropWhile Text.isBlank) := rfl
  by_cases hne : words = []
  · rw [hne]
    rfl
  · have kept : (" ".intercalate words).toList.rdropWhile Text.isBlank =
        (" ".intercalate words).toList := by
      rw [List.rdropWhile_eq_self_iff]
      intro hl
      rw [Bool.not_eq_true]
      exact getLast?_intercalate h _ (List.getLast?_eq_some_getLast hl)
    rw [trimmed, toList_spaced hne, List.rdropWhile_concat_pos _ _ _ (by rfl), kept,
      String.ofList_toList]

/-- Tokens have an answer exactly if their parentheses match. -/
theorem exists_resolve_iff {tokens : List String} :
    (∃ sent, resolve tokens = .ok sent) ↔ Balanced tokens := by
  have verdict : Verdict tokens (resolve tokens) :=
    @verdict_resolveFrom [] tokens [] (.balanced .nil)
  generalize resolve tokens = answer at verdict
  cases verdict with
  | @unmatched before after htokens h =>
    refine iff_of_false (by simp) fun balanced => ?_
    have first : Overcloses ((before ++ ")" :: after).take (before.length + 1)) :=
      (isLeast_overcloses h.balanced_of_nil).1
    rw [← htokens] at first
    exact balanced.nested _ first
  | unclosed h =>
    refine iff_of_false (by simp) fun balanced => ?_
    have count := h.count
    rw [balanced.closed, List.length_cons] at count
    omega
  | closed h => exact iff_of_true ⟨_, rfl⟩ h.balanced_of_nil

end Infix

namespace CommandLine

theorem shape_of_head {argument : String} (h : argument.toList.head? ≠ some '-') :
    Shape.of argument = .word := by
  unfold Shape.of
  split
  · rename_i htext
    simp [htext] at h
  · rename_i htext
    simp [htext] at h
  · rfl

/-- No argument behind the first operand is looked at. -/
theorem operands_of_word {argument : String} {v : Verbosity} (rest : List String)
    (h : argument.toList.head? ≠ some '-') :
    operands v (argument :: rest) = .ok (v, argument :: rest) := by
  have hdash : argument ≠ "--" := by
    rintro rfl
    exact h rfl
  rw [operands, if_neg hdash, shape_of_head h]

theorem parse_operands {first : String} (rest : List String)
    (h : first.toList.head? ≠ some '-') :
    parse ("postfix" :: first :: rest) = .ok ⟨.neutral, .resolve (first :: rest)⟩ := by
  have own : parseCommand .resolve (first :: rest) =
      .ok (.neutral, .resolve (first :: rest)) := by
    rw [parseCommand, operands_of_word rest h]
    rfl
  have named : CommandName.of? "postfix" = some .resolve := rfl
  rw [parse, parseFrom, if_neg (by decide), named]
  dsimp only
  rw [own]
  rfl

section Run

variable {arguments expression : List String} {read : String → Except ReadFault ByteArray}

/-- At the default log level a command on an expression writes no log. -/
theorem run_eq_runResolve (h : parse arguments = .ok ⟨.neutral, .resolve expression⟩) :
    run arguments read = runResolve (some .info) expression := by
  rw [run, h]
  rfl

theorem run_of_resolved {answer : String}
    (h : parse arguments = .ok ⟨.neutral, .resolve expression⟩)
    (hanswer : Infix.resolveText (" ".intercalate expression) = .ok answer) :
    run arguments read = succeed [Text.trimEnd answer] := by
  rw [run_eq_runResolve h, runResolve, hanswer]
  rfl

theorem run_of_unresolved {error : Infix.ResolveError}
    (h : parse arguments = .ok ⟨.neutral, .resolve expression⟩)
    (herror : Infix.resolveText (" ".intercalate expression) = .error error) :
    run arguments read = fail [] ("could not resolve " ++ Text.quote (" ".intercalate expression))
      error.message := by
  rw [run_eq_runResolve h, runResolve, herror]
  rfl

end Run

/-- Where the first argument behind the command's name begins with no hyphen, all of them are the
expression, in their order and as they are, and the log stays at its level. The run succeeds exactly
if the parentheses among the words of the expression match. It prints the tokens of the answer then,
with one blank between any two, on one line; and else it prints nothing. -/
theorem run_operands {first : String} (rest : List String)
    (read : String → Except ReadFault ByteArray) (h : first.toList.head? ≠ some '-') :
    let expression := first :: rest
    let tokens := Text.words (" ".intercalate expression).toList
    let execution := run ("postfix" :: expression) read
    parse ("postfix" :: expression) = .ok ⟨.neutral, .resolve expression⟩ ∧
      (Infix.Balanced tokens → ∃ sent, Infix.resolve tokens = .ok sent ∧
        (∀ word ∈ sent, Text.Unbroken word) ∧ execution.status = 0 ∧
        execution.stdout = " ".intercalate sent ++ "\n") ∧
      (¬Infix.Balanced tokens → execution.status = 1 ∧ execution.stdout = "") := by
  intro expression tokens execution
  have parsed := parse_operands rest h
  refine ⟨parsed, fun balanced => ?_, fun unbalanced => ?_⟩
  · obtain ⟨sent, hsent⟩ := Infix.exists_resolve_iff.2 balanced
    have words : ∀ word ∈ sent, Text.Unbroken word := Infix.unbroken_of_resolve hsent
    have printed : execution = succeed [" ".intercalate sent] := by
      rw [← Infix.trimEnd_spaced words]
      exact run_of_resolved parsed (Infix.resolveText_eq_ok_iff.2 ⟨sent, hsent, rfl⟩)
    refine ⟨sent, hsent, words, by rw [printed]; rfl, ?_⟩
    rw [printed]
    simp [succeed, Execution.stdout]
  · cases hanswer : Infix.resolveText (" ".intercalate expression) with
    | ok answer =>
      obtain ⟨sent, hsent, -⟩ := Infix.resolveText_eq_ok_iff.1 hanswer
      exact absurd (Infix.exists_resolve_iff.1 ⟨sent, hsent⟩) unbalanced
    | error error =>
      have printed : execution = _ := run_of_unresolved parsed hanswer
      exact ⟨by rw [printed]; rfl, by rw [printed]; rfl⟩

/-- Operands that look like options, one of which is an operator, and one with white space in it;
and a closing parenthesis that is one too many. -/
theorem run_operands_like_options :
    let read : String → Except ReadFault ByteArray := fun _ => .error .notFound
    let matching := ["(", "a", "-", "-v", ")", "--", "*\tb"]
    let overclosing := ["a", ")", "-q"]
    (parse ("postfix" :: matching) = .ok ⟨.neutral, .resolve matching⟩ ∧
      (run ("postfix" :: matching) read).status = 0 ∧
      (run ("postfix" :: matching) read).stdout = "a -v - -- b *\n") ∧
    (run ("postfix" :: overclosing) read).status = 1 ∧
      (run ("postfix" :: overclosing) read).stdout = "" := by
  intro read matching overclosing
  have matching_words : Text.words (" ".intercalate matching).toList =
      ["(", "a", "-", "-v", ")", "--", "*", "b"] := by decide +kernel
  have overclosing_words : Text.words (" ".intercalate overclosing).toList =
      ["a", ")", "-q"] := by decide +kernel
  constructor
  · obtain ⟨parsed, printed, -⟩ :=
      @run_operands "(" ["a", "-", "-v", ")", "--", "*\tb"] read (by decide)
    obtain ⟨sent, hsent, -, status, stdout⟩ := printed (by
      rw [matching_words]
      exact ⟨by decide, by decide⟩)
    rw [matching_words] at hsent
    obtain rfl : ["a", "-v", "-", "--", "b", "*"] = sent := Except.ok.inj hsent
    exact ⟨parsed, status, stdout.trans (by decide)⟩
  · refine (@run_operands "a" [")", "-q"] read (by decide)).2.2 fun balanced => ?_
    rw [overclosing_words] at balanced
    exact balanced.nested 2 (by decide)

end CommandLine
end FrontEnd
