import FrontEnd.Scan.Rules

/-!
# FrontEnd.Proofs.Scan.Dispatch

What the scanner takes off the front of a source, said about the characters alone.

* `Dispatch.Run p source text rest` — the longest run of characters of a class.
* `Dispatch.LineComment`, …, `Dispatch.LongestOperator` — one relation for each rule, between a
  source and what the rule makes of it. A rule that has begun may be at fault.
* `Dispatch.FirstMatch` — the rules in their order: what the first makes that takes the source
  at all, else an unexpected character.
* `Lexeme.Makes` — which form of token a lexeme makes.
-/

namespace FrontEnd

namespace Dispatch

def Layout (c : Char) : Prop := c = ' ' ∨ c = '\t' ∨ c = '\r' ∨ c = '\n'

def Letter (c : Char) : Prop := ('a' ≤ c ∧ c ≤ 'z') ∨ ('A' ≤ c ∧ c ≤ 'Z')

def Digit (c : Char) : Prop := '0' ≤ c ∧ c ≤ '9'

def WordStart (c : Char) : Prop := Letter c ∨ c = '_' ∨ c = '$' ∨ c = '%' ∨ c = '#'

def WordPart (c : Char) : Prop := Letter c ∨ Digit c ∨ c = '_'

/-- The source begins with `text`, all in the class, and `rest` does not go on with the class. -/
structure Run (p : Char → Prop) (source text rest : List Char) : Prop where
  source_eq : source = text ++ rest
  inside : ∀ c ∈ text, p c
  stops : ∀ c ∈ rest.head?, ¬p c

/-- What a rule makes of a source: a lexeme, or a fault. -/
abbrev Answer := Except ScanFault Scan

abbrev Spec := List Char → Answer → Prop

/-- The end of the line is left to the rest. -/
inductive LineComment : Spec
  | mk {after body rest : List Char} : Run (· ≠ '\n') after body rest →
    LineComment ('/' :: '/' :: after) (.ok ⟨.insignificant, '/' :: '/' :: body, rest⟩)

/-- No `*/` ends earlier than the one that is taken; the star of the opener is not its star. -/
inductive BlockComment : Spec
  | closed {body rest : List Char} : ¬['*', '/'] <:+: body ++ ['*'] →
    BlockComment ('/' :: '*' :: (body ++ '*' :: '/' :: rest))
      (.ok ⟨.insignificant, '/' :: '*' :: (body ++ ['*', '/']), rest⟩)
  | unterminated {after : List Char} : ¬['*', '/'] <:+: after →
    BlockComment ('/' :: '*' :: after) (.error .unterminatedComment)

inductive LayoutRun : Spec
  | mk {source text rest : List Char} : text ≠ [] → Run Layout source text rest →
    LayoutRun source (.ok ⟨.insignificant, text, rest⟩)

inductive MaximalWord : Spec
  | mk {c : Char} {after part rest : List Char} : WordStart c → Run WordPart after part rest →
    MaximalWord (c :: after) (.ok ⟨.word (String.ofList (c :: part)), c :: part, rest⟩)

inductive Mark : Spec
  | mk {p : Punctuation} {rest : List Char} :
    Mark (p.char :: rest) (.ok ⟨.punctuation p, [p.char], rest⟩)

/-- The character behind a backslash, and the one that both stand for. -/
inductive Escape : Char → Char → Prop
  | lineBreak : Escape 'n' '\n'
  | tab : Escape 't' '\t'
  | carriageReturn : Escape 'r' '\r'
  | nul : Escape '0' '\x00'
  | backspace : Escape 'b' '\x08'
  | quote : Escape '"' '"'

/-- Plain characters and escapes, with the characters that they stand for. -/
inductive Content : List Char → List Char → Prop
  | nil : Content [] []
  | plain {c : Char} {raw value : List Char} : c ≠ '"' → c ≠ '\\' → Content raw value →
    Content (c :: raw) (c :: value)
  | escape {c v : Char} {raw value : List Char} : Escape c v → Content raw value →
    Content ('\\' :: c :: raw) (v :: value)

inductive StringLiteral : Spec
  | closed {raw value rest : List Char} : Content raw value →
    StringLiteral ('"' :: (raw ++ '"' :: rest))
      (.ok ⟨.string (String.ofList value), '"' :: (raw ++ ['"']), rest⟩)
  | invalidEscape {raw value rest : List Char} {c : Char} : Content raw value →
    (∀ v, ¬Escape c v) →
    StringLiteral ('"' :: (raw ++ '\\' :: c :: rest))
      (.error (.invalidEscape ('"' :: (raw ++ ['\\'])) c))
  | unclosed {raw value : List Char} : Content raw value →
    StringLiteral ('"' :: raw) (.error .unterminatedString)
  | unclosedEscape {raw value : List Char} : Content raw value →
    StringLiteral ('"' :: (raw ++ ['\\'])) (.error .unterminatedString)

inductive NumberLiteral : Spec
  | integer {source whole rest : List Char} : whole ≠ [] → Run Digit source whole rest →
    '.' ∉ rest.head? →
    NumberLiteral source (.ok ⟨.number (String.ofList whole), whole, rest⟩)
  | decimal {source whole after fraction rest : List Char} : whole ≠ [] →
    Run Digit source whole ('.' :: after) → Run Digit after fraction rest → '.' ∉ rest.head? →
    NumberLiteral source
      (.ok ⟨.number (String.ofList (whole ++ '.' :: fraction)), whole ++ '.' :: fraction, rest⟩)
  | malformed {source whole after fraction rest : List Char} : whole ≠ [] →
    Run Digit source whole ('.' :: after) → Run Digit after fraction ('.' :: rest) →
    NumberLiteral source
      (.error (.malformedNumber (String.ofList (whole ++ '.' :: (fraction ++ ['.'])))))

/-- The operator is one the scanner reads, and it is written so. -/
def Spells (text : List Char) (op : Operator) : Prop :=
  op.isScanned = true ∧ op.lexeme.toList = text

/-- Two characters are tried first, and where they are an operator, a third one; one character
is tried where two are none. -/
inductive LongestOperator : Spec
  | three {a b c : Char} {rest : List Char} {two op : Operator} : Spells [a, b] two →
    Spells [a, b, c] op →
    LongestOperator (a :: b :: c :: rest) (.ok ⟨.operator op, [a, b, c], rest⟩)
  | two {a b : Char} {rest : List Char} {op : Operator} : Spells [a, b] op →
    (∀ c ∈ rest.head?, ∀ op, ¬Spells [a, b, c] op) →
    LongestOperator (a :: b :: rest) (.ok ⟨.operator op, [a, b], rest⟩)
  | one {a : Char} {rest : List Char} {op : Operator} : Spells [a] op →
    (∀ b ∈ rest.head?, ∀ op, ¬Spells [a, b] op) →
    LongestOperator (a :: rest) (.ok ⟨.operator op, [a], rest⟩)

/-- A later rule has a turn only where no earlier one has an answer, be it a fault. -/
inductive FirstMatch : List Spec → Spec
  | here {spec : Spec} {specs : List Spec} {source : List Char} {answer : Answer} :
    spec source answer → FirstMatch (spec :: specs) source answer
  | later {spec : Spec} {specs : List Spec} {source : List Char} {answer : Answer} :
    (∀ other, ¬spec source other) → FirstMatch specs source answer →
    FirstMatch (spec :: specs) source answer
  | unexpected {c : Char} {rest : List Char} :
    FirstMatch [] (c :: rest) (.error (.unexpected c))

def specs : List Spec :=
  [LineComment, BlockComment, LayoutRun, MaximalWord, Mark, StringLiteral, NumberLiteral,
    LongestOperator]

end Dispatch

/-- A word is a keyword before it is a literal word, and an identifier only where it is neither;
an operator without a kind makes a null token. -/
inductive Lexeme.Makes : Lexeme → Option Token.Form → Prop
  | insignificant : Makes .insignificant none
  | keyword {k : Keyword} : Makes (.word k.lexeme) (some (.keyword k))
  | nullWord {word : String} : (∀ k : Keyword, k.lexeme ≠ word) → word = "null" →
    Makes (.word word) (some .null)
  | trueWord {word : String} : (∀ k : Keyword, k.lexeme ≠ word) → word = "true" →
    Makes (.word word) (some (.bool true))
  | falseWord {word : String} : (∀ k : Keyword, k.lexeme ≠ word) → word = "false" →
    Makes (.word word) (some (.bool false))
  | identifier {word : String} : (∀ k : Keyword, k.lexeme ≠ word) →
    word ∉ ["null", "true", "false"] → Makes (.word word) (some (.identifier word))
  | punctuation {p : Punctuation} : Makes (.punctuation p) (some (.punctuation p))
  | string {value : String} : Makes (.string value) (some (.string value))
  | number {digits : String} : Makes (.number digits) (some (.number digits))
  | operator {op : Operator} (hasKind : op.kind?.isSome = true) :
    Makes (.operator op) (some (.operator op hasKind))
  | kindless {op : Operator} : op.kind? = none → Makes (.operator op) (some .null)

end FrontEnd
