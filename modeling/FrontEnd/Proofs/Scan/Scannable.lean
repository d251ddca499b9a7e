import FrontEnd.Proofs.Scan.FirstMatch
import FrontEnd.Proofs.Scan.Yields

/-!
# FrontEnd.Proofs.Scan.Scannable

Which tokens the scanner can yield.

* `Token.Form.Scannable`, `TokenStream.Scannable` — the tokens, and the streams made of them:
  one end of input, behind everything else.
* `Lexeme.regular_of_firstMatch` — what the rules take off a source is of the right shape.
* `Scanner.yields_scannable` — so what a run without error yields is scannable.
* `Scanner.Yields.scannable_of_mem` — and so is every token, whatever comes behind it.
-/

namespace FrontEnd

open Dispatch

/-- The text is a word as the scanner takes it. -/
def IsWord (text : String) : Prop :=
  ∃ c part, text.toList = c :: part ∧ WordStart c ∧ ∀ d ∈ part, WordPart d

/-- The text is digits, perhaps followed by a point, and perhaps more digits. -/
def IsNumber (text : String) : Prop :=
  ∃ whole, whole ≠ [] ∧ (∀ d ∈ whole, Digit d) ∧
    (text.toList = whole ∨
      ∃ fraction, (∀ d ∈ fraction, Digit d) ∧ text.toList = whole ++ '.' :: fraction)

namespace Token.Form

/-- An identifier is a word without another meaning. A backslash cannot be written inside a
string, and a percent sign begins a word where it stands. -/
def Scannable : Token.Form → Prop
  | identifier name =>
    IsWord name ∧ (∀ k : Keyword, k.lexeme ≠ name) ∧ name ∉ ["null", "true", "false"]
  | number digits => IsNumber digits
  | string value => '\\' ∉ value.toList
  | operator op _ => op ≠ .mod ∧ op ≠ .modAssign
  | eof => False
  | keyword _ | bool _ | null | punctuation _ => True

end Token.Form

def TokenStream.Scannable (tokens : TokenStream) : Prop :=
  ∃ forms, tokens.map Token.form = forms ++ [.eof] ∧ ∀ form ∈ forms, form.Scannable

namespace Lexeme

/-- The shape of what the rules take. -/
def Regular : Lexeme → Prop
  | word text => IsWord text
  | number digits => IsNumber digits
  | string value => '\\' ∉ value.toList
  | operator op => op ≠ .mod ∧ op ≠ .modAssign
  | insignificant | punctuation _ => True

theorem Regular.scannable {lexeme : Lexeme} {form : Token.Form} (h : lexeme.Regular)
    (hm : lexeme.Makes (some form)) : form.Scannable := by
  cases hm with
  | identifier hk hw => exact ⟨h, hk, hw⟩
  | string => exact h
  | number => exact h
  | operator => exact h
  | _ => trivial

end Lexeme

namespace Dispatch

theorem Content.backslash_not_mem {raw value : List Char} (h : Content raw value) :
    '\\' ∉ value := by
  induction h with
  | nil => exact List.not_mem_nil
  | plain _ hslash _ ih => exact List.not_mem_cons_of_ne_of_not_mem hslash.symm ih
  | escape hc _ ih =>
    exact List.not_mem_cons_of_ne_of_not_mem (by cases hc <;> decide) ih

theorem Spells.head_wordStart {c : Char} {rest : List Char} {op : Operator}
    (h : Spells (c :: rest) op) (hop : op = .mod ∨ op = .modAssign) : WordStart c := by
  obtain ⟨_, h⟩ := h
  have : c = '%' := by
    rcases hop with rfl | rfl <;> cases h <;> rfl
  simp [this, WordStart]

end Dispatch

namespace Lexeme

theorem regular_of_firstMatch {source : List Char} {s : Scan}
    (h : FirstMatch specs source (.ok s)) : s.lexeme.Regular := by
  rcases h.cases with h | h | h | h | h | h | h | ⟨no_word, h⟩ | ⟨_, _, _, h⟩
  · cases h; trivial
  · cases h; trivial
  · cases h; trivial
  · cases h with
    | mk hc run => exact ⟨_, _, String.toList_ofList, hc, run.inside⟩
  · cases h; trivial
  · cases h with
    | closed content => simpa [Regular] using content.backslash_not_mem
  · cases h with
    | integer hne run _ => exact ⟨_, hne, run.inside, .inl String.toList_ofList⟩
    | decimal hne run run' _ =>
      exact ⟨_, hne, run.inside, .inr ⟨_, run'.inside, String.toList_ofList⟩⟩
  · have not_mod : ∀ {c : Char} {rest text : List Char} {op : Operator}, source = c :: rest →
        Spells (c :: text) op → op ≠ .mod ∧ op ≠ .modAssign := by
      rintro c rest text op rfl hop
      refine not_or.1 fun h => ?_
      exact no_word _ (.mk (hop.head_wordStart h) (run_takeWhile fun _ => isWordPart_iff))
    cases h with
    | three _ hop => exact not_mod rfl hop
    | two hop _ => exact not_mod rfl hop
    | one hop _ => exact not_mod rfl hop
  · cases h

end Lexeme

namespace Scanner

theorem yields_scannable {line : Nat} {source : List Char} {tokens : TokenStream}
    (h : Yields line source tokens none) : tokens.Scannable := by
  generalize he : (none : Option ScanError) = error? at h
  induction h with
  | finish => exact ⟨[], rfl, by simp⟩
  | fault => cases he
  | token hs hf _ ih =>
    obtain ⟨forms, hforms, hall⟩ := ih he
    have scannable := (Lexeme.regular_of_firstMatch (scan_eq_iff_firstMatch.1 hs)).scannable
      (Lexeme.form?_eq_iff_makes.1 hf)
    exact ⟨_ :: forms, congrArg (_ :: ·) hforms, List.forall_mem_cons.2 ⟨scannable, hall⟩⟩
  | skip _ _ _ ih => exact ih he

/-- Also in front of an error every token is scannable, or the end of input. -/
theorem Yields.scannable_of_mem {line : Nat} {source : List Char} {tokens : TokenStream}
    {error? : Option ScanError} (h : Yields line source tokens error?) :
    ∀ token ∈ tokens, token.form.Scannable ∨ token.form = .eof := by
  induction h with
  | finish => exact List.forall_mem_singleton.2 (.inr rfl)
  | fault => exact List.forall_mem_nil _
  | token hs hf _ ih =>
    have scannable := (Lexeme.regular_of_firstMatch (scan_eq_iff_firstMatch.1 hs)).scannable
      (Lexeme.form?_eq_iff_makes.1 hf)
    exact List.forall_mem_cons.2 ⟨.inl scannable, ih⟩
  | skip _ _ _ ih => exact ih

end Scanner

end FrontEnd
