import FrontEnd.Proofs.Scan.Leading
import FrontEnd.Proofs.Scan.Scannable

/-!
# FrontEnd.Proofs.Token.Display

The shown form of a token, read back.

* `Text.append_cons_inj` — a text is cut at the first of some character in one way only.
* `Token.Form.text_eq_of_shown_eq` — of one kind, forms that are shown alike have the same text,
  if they are strings, because no string holds a backslash.
* `Token.Form.oneLine_shown` — what is shown of a form keeps to one line.
* `Token.eq_of_display_eq`, `Token.oneLine_display` — both for tokens as they are listed.
-/

namespace FrontEnd

open Dispatch

theorem Text.append_cons_inj {c : Char} {a a' b b' : List Char} (ha : c ∉ a) (ha' : c ∉ a')
    (h : a ++ c :: b = a' ++ c :: b') : a = a' ∧ b = b' := by
  induction a generalizing a' with
  | nil =>
    cases a' with
    | nil => exact ⟨rfl, List.tail_eq_of_cons_eq h⟩
    | cons d a' => exact absurd (List.head_eq_of_cons_eq h) (List.ne_of_not_mem_cons ha')
  | cons d a ih =>
    cases a' with
    | nil => exact absurd (List.head_eq_of_cons_eq h).symm (List.ne_of_not_mem_cons ha)
    | cons d' a' =>
      obtain ⟨rfl, htails⟩ := List.cons.inj h
      obtain ⟨rfl, rfl⟩ := ih (List.not_mem_of_not_mem_cons ha) (List.not_mem_of_not_mem_cons ha')
        htails
      exact ⟨rfl, rfl⟩

/-- No line break of either kind. -/
def Text.OneLine (text : List Char) : Prop := '\n' ∉ text ∧ '\r' ∉ text

instance (text : List Char) : Decidable (Text.OneLine text) :=
  inferInstanceAs (Decidable (_ ∧ _))

namespace Text.OneLine

theorem append {a b : List Char} (ha : OneLine a) (hb : OneLine b) : OneLine (a ++ b) :=
  ⟨by simp [ha.1, hb.1], by simp [ha.2, hb.2]⟩

theorem of_forall {p : Char → Prop} {text : List Char} (h : ∀ c ∈ text, p c) (hn : ¬p '\n')
    (hr : ¬p '\r') : OneLine text :=
  ⟨fun hmem => hn (h _ hmem), fun hmem => hr (h _ hmem)⟩

end Text.OneLine

namespace Token

/-- A character that is written as a code, and the letter of the code. -/
inductive Coded : Char → Char → Prop
  | lineFeed : Coded '\n' 'n'
  | tab : Coded '\t' 't'
  | carriageReturn : Coded '\r' 'r'
  | backspace : Coded '\x08' 'b'

theorem Coded.unique {c d letter : Char} (hc : Coded c letter) (hd : Coded d letter) : c = d := by
  cases hc <;> cases hd <;> rfl

theorem escapeControl_cases (c : Char) :
    (∃ letter, Coded c letter ∧ escapeControl c = ['\\', letter]) ∨
      c ≠ '\n' ∧ c ≠ '\r' ∧ escapeControl c = [c] := by
  unfold escapeControl
  by_cases hlf : c = '\n'
  · exact .inl ⟨'n', hlf ▸ .lineFeed, if_pos hlf⟩
  by_cases htab : c = '\t'
  · exact .inl ⟨'t', htab ▸ .tab, by rw [if_neg hlf, if_pos htab]⟩
  by_cases hcr : c = '\r'
  · exact .inl ⟨'r', hcr ▸ .carriageReturn, by rw [if_neg hlf, if_neg htab, if_pos hcr]⟩
  by_cases hbs : c = '\x08'
  · exact .inl ⟨'b', hbs ▸ .backspace, by rw [if_neg hlf, if_neg htab, if_neg hcr, if_pos hbs]⟩
  · exact .inr ⟨hlf, hcr, by rw [if_neg hlf, if_neg htab, if_neg hcr, if_neg hbs]⟩

/-- A backslash begins a code, if the text itself has none. -/
theorem escapeControl_append_inj {c d : Char} {a b : List Char} (hc : c ≠ '\\') (hd : d ≠ '\\')
    (h : escapeControl c ++ a = escapeControl d ++ b) : c = d ∧ a = b := by
  rcases escapeControl_cases c with ⟨letter, coded, hcode⟩ | ⟨-, -, hcode⟩ <;>
    rcases escapeControl_cases d with ⟨letter', coded', hcode'⟩ | ⟨-, -, hcode'⟩ <;>
    rw [hcode, hcode'] at h
  · obtain ⟨rfl, htails⟩ := List.cons.inj (List.tail_eq_of_cons_eq h)
    exact ⟨coded.unique coded', htails⟩
  · exact absurd (List.head_eq_of_cons_eq h).symm hd
  · exact absurd (List.head_eq_of_cons_eq h) hc
  · exact List.cons.inj h

theorem escapeControl_ne_nil (c : Char) : escapeControl c ≠ [] := by
  rcases escapeControl_cases c with ⟨letter, -, hcode⟩ | ⟨-, -, hcode⟩ <;>
    exact hcode ▸ List.cons_ne_nil _ _

theorem flatMap_escapeControl_inj {a b : List Char} (ha : '\\' ∉ a) (hb : '\\' ∉ b)
    (h : a.flatMap escapeControl = b.flatMap escapeControl) : a = b := by
  induction a generalizing b with
  | nil =>
    cases b with
    | nil => rfl
    | cons d b => exact absurd (List.append_eq_nil_iff.1 h.symm).1 (escapeControl_ne_nil d)
  | cons c a ih =>
    cases b with
    | nil => exact absurd (List.append_eq_nil_iff.1 h).1 (escapeControl_ne_nil c)
    | cons d b =>
      obtain ⟨rfl, htails⟩ := escapeControl_append_inj (List.ne_of_not_mem_cons ha).symm
        (List.ne_of_not_mem_cons hb).symm h
      rw [ih (List.not_mem_of_not_mem_cons ha) (List.not_mem_of_not_mem_cons hb) htails]

theorem inQuotes_inj {a b : String} (ha : '\\' ∉ a.toList) (hb : '\\' ∉ b.toList)
    (h : inQuotes escapeControl a = inQuotes escapeControl b) : a = b := by
  have texts := (String.ofList_inj.1 h)
  have inside := List.append_cancel_right (List.tail_eq_of_cons_eq texts)
  exact String.toList_inj.1 (flatMap_escapeControl_inj ha hb inside)

theorem oneLine_escapeControl (c : Char) : Text.OneLine (escapeControl c) := by
  rcases escapeControl_cases c with ⟨letter, coded, hcode⟩ | ⟨hlf, hcr, hcode⟩
  · rw [hcode]
    cases coded <;> decide
  · rw [hcode]
    exact ⟨List.mem_singleton.not.2 (Ne.symm hlf), List.mem_singleton.not.2 (Ne.symm hcr)⟩

theorem oneLine_inQuotes (text : String) :
    Text.OneLine (inQuotes escapeControl text).toList := by
  have inside : Text.OneLine (text.toList.flatMap escapeControl) := by
    constructor <;> intro hmem <;> obtain ⟨c, -, hc⟩ := List.mem_flatMap.1 hmem
    · exact (oneLine_escapeControl c).1 hc
    · exact (oneLine_escapeControl c).2 hc
  rw [inQuotes, String.toList_ofList]
  exact (Text.OneLine.append (a := ['"']) (by decide) inside).append (by decide)

namespace Form

/-- Within one kind, what is shown tells the text. -/
theorem text_eq_of_shown_eq {a b : Form} (ha : ∀ value, a = string value → '\\' ∉ value.toList)
    (hb : ∀ value, b = string value → '\\' ∉ value.toList) (hk : a.kind = b.kind)
    (h : a.shown = b.shown) : a.text = b.text := by
  cases b with
  | operator op hasKind =>
    obtain ⟨op', hasKind', rfl⟩ := eq_operator_of_kind hk
    simpa [shown, String.ext_iff, text] using h
  | punctuation p => rw [eq_punctuation_of_kind hk]
  | string value =>
    cases a with
    | string value' => exact inQuotes_inj (ha value' rfl) (hb value rfl) h
    | punctuation p => cases eq_punctuation_of_kind hk.symm
    | operator op hasKind => obtain ⟨_, _, heq⟩ := eq_operator_of_kind hk.symm; cases heq
    | _ => cases hk
  | _ =>
    cases a with
    | punctuation p => cases eq_punctuation_of_kind hk.symm
    | operator op hasKind => obtain ⟨_, _, heq⟩ := eq_operator_of_kind hk.symm; cases heq
    | _ => cases hk <;> exact h

theorem oneLine_shown {form : Form} (h : form.Scannable ∨ form = eof) :
    Text.OneLine form.shown.toList := by
  cases form with
  | keyword k => cases k <;> decide
  | identifier name =>
    obtain ⟨⟨c, part, htext, hstart, hparts⟩, -⟩ := h.resolve_right nofun
    have inside : ∀ d ∈ name.toList, WordStart d ∨ WordPart d := by
      rw [htext]
      exact List.forall_mem_cons.2 ⟨.inl hstart, fun d hd => .inr (hparts d hd)⟩
    exact .of_forall inside (not_or.2 ⟨by decide, by decide⟩) (not_or.2 ⟨by decide, by decide⟩)
  | number digits =>
    obtain ⟨whole, -, hwhole, hparts⟩ := h.resolve_right nofun
    have inside : ∀ d ∈ digits.toList, Digit d ∨ d = '.' := by
      intro d hd
      rcases hparts with htext | ⟨fraction, hfraction, htext⟩ <;> rw [htext] at hd
      · exact .inl (hwhole d hd)
      · rcases List.mem_append.1 hd with hd | hd
        · exact .inl (hwhole d hd)
        · exact (List.mem_cons.1 hd).symm.imp_left (hfraction d)
    exact .of_forall inside (not_or.2 ⟨by decide, by decide⟩) (not_or.2 ⟨by decide, by decide⟩)
  | string value => exact oneLine_inQuotes value
  | bool value => cases value <;> decide
  | null => decide
  | eof => decide
  | punctuation p => cases p <;> decide
  | operator op hasKind =>
    have marked : ∀ op : Operator, Text.OneLine ("'" ++ op.lexeme ++ "'").toList := by
      intro op
      cases op <;> decide
    exact marked op

theorem backslash_not_mem {form : Form} (h : form.Scannable ∨ form = eof) :
    ∀ value, form = string value → '\\' ∉ value.toList := by
  rintro value rfl
  exact h.resolve_right nofun

end Form

theorem toList_display (token : Token) : token.display.toList =
    Nat.toDigits 10 token.line ++ ':' :: (('(' :: token.kind.label.toList) ++
      ',' :: (' ' :: token.form.shown.toList ++ [')'])) := by
  simp [display]

theorem toDigits_inj {m n : Nat} (h : Nat.toDigits 10 m = Nat.toDigits 10 n) : m = n := by
  rw [← Nat.ofDigitChars_ten_toDigits (n := m), h, Nat.ofDigitChars_ten_toDigits]

theorem not_mem_toDigits {n : Nat} {c : Char} (hc : ¬c.isDigit = true) : c ∉ Nat.toDigits 10 n :=
  fun hmem => hc (Nat.isDigit_of_mem_toDigits (by decide) (by decide) hmem)

theorem oneLine_label (kind : TokenKind) :
    Text.OneLine kind.label.toList ∧ ',' ∉ kind.label.toList := by
  cases kind <;> decide

theorem oneLine_display {token : Token} (h : token.form.Scannable ∨ token.form = .eof) :
    Text.OneLine token.display.toList := by
  have line : Text.OneLine (Nat.toDigits 10 token.line) :=
    ⟨not_mem_toDigits (by decide), not_mem_toDigits (by decide)⟩
  have label := (oneLine_label token.kind).1
  have shown := Form.oneLine_shown h
  have parts : token.display.toList = Nat.toDigits 10 token.line ++ ([':', '('] ++
      (token.kind.label.toList ++ ([',', ' '] ++ (token.form.shown.toList ++ [')'])))) := by
    rw [toList_display]
    simp
  rw [parts]
  exact line.append (.append (by decide) (label.append (.append (by decide)
    (shown.append (by decide)))))

theorem eq_iff {a b : Token} : a = b ↔ a.kind = b.kind ∧ a.text = b.text ∧ a.line = b.line := by
  constructor
  · rintro rfl
    exact ⟨rfl, rfl, rfl⟩
  · rintro ⟨hkind, htext, hline⟩
    cases a
    cases b
    exact congr (congrArg Token.mk (Form.eq_of_kind_of_text hkind htext)) hline

/-- The line ends at the first colon and the kind at the first comma. -/
theorem eq_of_display_eq {a b : Token} (ha : a.form.Scannable ∨ a.form = .eof)
    (hb : b.form.Scannable ∨ b.form = .eof) (h : a.display = b.display) : a = b := by
  rw [← String.toList_inj, toList_display, toList_display] at h
  obtain ⟨hline, h⟩ := Text.append_cons_inj (not_mem_toDigits (by decide))
    (not_mem_toDigits (by decide)) h
  obtain ⟨hlabel, h⟩ := Text.append_cons_inj
    (List.not_mem_cons_of_ne_of_not_mem (by decide) (oneLine_label a.kind).2)
    (List.not_mem_cons_of_ne_of_not_mem (by decide) (oneLine_label b.kind).2) h
  have kind : a.kind = b.kind :=
    TokenKind.label_injective (String.toList_inj.1 (List.tail_eq_of_cons_eq hlabel))
  have shown : a.form.shown = b.form.shown :=
    String.toList_inj.1 (List.append_cancel_right (List.tail_eq_of_cons_eq h))
  have text : a.text = b.text :=
    Form.text_eq_of_shown_eq (Form.backslash_not_mem ha) (Form.backslash_not_mem hb) kind shown
  exact eq_iff.2 ⟨kind, text, toDigits_inj hline⟩

end Token
end FrontEnd
