import FrontEnd.Lexeme.Word
import FrontEnd.Lexeme.Symbol
import FrontEnd.Text.Quoted

/-!
# FrontEnd.Token.Basic

Tokens: what the scanner found, and on which line it began.

* `Token.Form` — what a token is, line apart. Every form has a kind (`Form.kind`) and a text
  (`Form.text`), and these two determine it (`Form.eq_of_kind_of_text`).
* `Token.Same` — tokens alike up to their lines.
* `Token.ofPunctuation`, `Token.ofOperator` — tokens from a lexeme; one that the tables do not
  have makes a null token.
* `Token.display`, `Token.debug` — the two forms in which messages show a token.
* `Token.sourceText` — a text that scans to the token again.
-/

namespace FrontEnd

/-- What a token is. The text of a string is its value, without quotes and escapes; an operator
is one that has a token kind. -/
inductive Token.Form where
  | keyword (keyword : Keyword)
  | identifier (name : String)
  | number (digits : String)
  | string (value : String)
  | bool (value : Bool)
  | null
  | eof
  | punctuation (punctuation : Punctuation)
  | operator (operator : Operator) (hasKind : operator.kind?.isSome = true)
  deriving DecidableEq

structure Token where
  form : Token.Form
  line : Nat
  deriving DecidableEq

namespace Token

namespace Form

def kind : Form → TokenKind
  | keyword _ => .keyword
  | identifier _ => .identifier
  | number _ => .number
  | string _ => .string
  | bool _ => .bool
  | null => .null
  | eof => .eof
  | punctuation p => p.kind
  | operator op hasKind => op.kind?.get hasKind

def text : Form → String
  | keyword k => k.lexeme
  | identifier name => name
  | number digits => digits
  | string value => value
  | bool true => LiteralWord.trueWord.lexeme
  | bool false => LiteralWord.falseWord.lexeme
  | null => LiteralWord.nullWord.lexeme
  | eof => ""
  | punctuation p => p.lexeme
  | operator op _ => op.lexeme

/-- The form of an operator; one without a kind makes a null token. -/
def ofOperator (op : Operator) : Form :=
  if hasKind : op.kind?.isSome = true then operator op hasKind else null

end Form

/-- Line break, tab, carriage return and backspace, which would break up a line of output. -/
def escapeControl (c : Char) : List Char :=
  if c = '\n' then ['\\', 'n']
  else if c = '\t' then ['\\', 't']
  else if c = '\r' then ['\\', 'r']
  else if c = '\x08' then ['\\', 'b']
  else [c]

/-- A character inside the quotes of a string literal. A backslash stands as it is. -/
def escapeLiteral (c : Char) : List Char :=
  if c = '\x00' then ['\\', '0']
  else if c = '"' then ['\\', '"']
  else escapeControl c

/-- The text between double quotes, each character written by `escape`. -/
def inQuotes (escape : Char → List Char) (text : String) : String :=
  String.ofList ('"' :: text.toList.flatMap escape ++ ['"'])

namespace Form

/-- What is shown of a token beside its kind: words and numbers bare, strings in double quotes,
symbols in single quotes. -/
def shown : Form → String
  | string value => inQuotes escapeControl value
  | punctuation p => "'" ++ p.lexeme ++ "'"
  | operator op _ => "'" ++ op.lexeme ++ "'"
  | form => form.text

/-- Text that scans to this form. -/
def sourceText : Form → String
  | string value => inQuotes escapeLiteral value
  | form => form.text

end Form

def kind (token : Token) : TokenKind := token.form.kind

def text (token : Token) : String := token.form.text

def sourceText (token : Token) : String := token.form.sourceText

/-- Whether two tokens are alike, whatever their lines. -/
def Same (a b : Token) : Prop := a.form = b.form

instance (a b : Token) : Decidable (Same a b) := inferInstanceAs (Decidable (a.form = b.form))

def isKeyword (token : Token) (keyword : Keyword) : Bool :=
  token.form = .keyword keyword

def eof (line : Nat) : Token := ⟨.eof, line⟩

def null (line : Nat) : Token := ⟨.null, line⟩

/-- The punctuation token of a character, or a null token if it is no punctuation. -/
def ofPunctuation (c : Char) (line : Nat) : Token :=
  match Punctuation.ofChar? c with
  | some p => ⟨.punctuation p, line⟩
  | none => null line

/-- The operator token of a lexeme, or a null token if the lexeme is no operator or has no
kind. -/
def ofOperator (lexeme : String) (line : Nat) : Token :=
  match Operator.ofLexeme? lexeme with
  | some operator => ⟨.ofOperator operator, line⟩
  | none => null line

/-- Line, kind and text, as a listing shows them. -/
def display (token : Token) : String :=
  toString token.line ++ ":(" ++ token.kind.label ++ ", " ++ token.form.shown ++ ")"

/-- Kind and text, the text quoted. -/
def debug (token : Token) : String :=
  token.kind.label ++ "(" ++ Text.quote token.text ++ ")"

namespace Form

theorem kind_operator {op : Operator} {hasKind : op.kind?.isSome = true} :
    op.kind? = some (operator op hasKind).kind := by
  simp [kind]

/-- The kind of an operator is none of the kinds of other forms. -/
theorem eq_operator_of_kind {form : Form} {op : Operator} {hasKind : op.kind?.isSome = true}
    (h : form.kind = (operator op hasKind).kind) :
    ∃ (op' : Operator) (hasKind' : op'.kind?.isSome = true), form = operator op' hasKind' := by
  have hk : op.kind? = some form.kind := by rw [h]; exact kind_operator
  cases form with
  | operator op' hasKind' => exact ⟨op', hasKind', rfl⟩
  | punctuation p => cases p <;> cases op <;> simp [kind, Punctuation.kind, Operator.kind?] at hk
  | _ => cases op <;> simp [kind, Operator.kind?] at hk

/-- The kind of a punctuation mark is its own. -/
theorem eq_punctuation_of_kind {form : Form} {p : Punctuation}
    (h : form.kind = (punctuation p).kind) : form = punctuation p := by
  cases form with
  | operator op hasKind =>
    obtain ⟨op', hasKind', h'⟩ := eq_operator_of_kind h.symm
    cases h'
  | punctuation q => cases p <;> cases q <;> first | rfl | cases h
  | _ => cases p <;> cases h

theorem eq_of_kind_of_text {a b : Form} (hk : a.kind = b.kind) (ht : a.text = b.text) :
    a = b := by
  cases b with
  | operator op hasKind =>
    obtain ⟨op', hasKind', rfl⟩ := eq_operator_of_kind hk
    have : op' = op := Option.some.inj (by
      rw [← Operator.ofLexeme?_lexeme op', ← Operator.ofLexeme?_lexeme op]
      exact congrArg Operator.ofLexeme? ht)
    subst this
    rfl
  | punctuation p => exact eq_punctuation_of_kind hk
  | keyword k =>
    cases a with
    | keyword k' =>
      exact congrArg keyword (Option.some.inj (by
        rw [← Keyword.ofLexeme?_lexeme k', ← Keyword.ofLexeme?_lexeme k]
        exact congrArg Keyword.ofLexeme? ht))
    | punctuation p => cases eq_punctuation_of_kind hk.symm
    | operator op hasKind => obtain ⟨_, _, h⟩ := eq_operator_of_kind hk.symm; cases h
    | _ => cases hk
  | bool v =>
    cases a with
    | bool v' => cases v <;> cases v' <;> first | rfl | exact absurd ht (by decide)
    | punctuation p => cases eq_punctuation_of_kind hk.symm
    | operator op hasKind => obtain ⟨_, _, h⟩ := eq_operator_of_kind hk.symm; cases h
    | _ => cases hk
  | _ =>
    cases a with
    | punctuation p => cases eq_punctuation_of_kind hk.symm
    | operator op hasKind => obtain ⟨_, _, h⟩ := eq_operator_of_kind hk.symm; cases h
    | _ => cases hk <;> cases ht <;> rfl

end Form

theorem same_iff {a b : Token} : a.Same b ↔ a.kind = b.kind ∧ a.text = b.text :=
  ⟨fun h => ⟨congrArg Form.kind h, congrArg Form.text h⟩,
    fun h => Form.eq_of_kind_of_text h.1 h.2⟩

end Token

end FrontEnd
