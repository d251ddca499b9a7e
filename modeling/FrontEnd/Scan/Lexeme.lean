import FrontEnd.Token.Basic

/-!
# FrontEnd.Scan.Lexeme

What the scanner takes off the front of the source at one go.

* `Lexeme` — a word, a symbol, a literal, or something without meaning: blanks or a comment.
* `Lexeme.form?` — the form of token a lexeme makes; the insignificant ones make none.
* `Token.Form.ofWord` — a word is a keyword, else a literal word, else an identifier.
-/

namespace FrontEnd

inductive Lexeme where
  | insignificant
  | word (text : String)
  | punctuation (punctuation : Punctuation)
  | string (value : String)
  | number (digits : String)
  | operator (operator : Operator)
  deriving DecidableEq, Repr

def Token.Form.ofWord (word : String) : Token.Form :=
  match Keyword.ofLexeme? word, LiteralWord.ofLexeme? word with
  | some k, _ => .keyword k
  | none, some .nullWord => .null
  | none, some .trueWord => .bool true
  | none, some .falseWord => .bool false
  | none, none => .identifier word

namespace Lexeme

def form? : Lexeme → Option Token.Form
  | insignificant => none
  | word text => some (Token.Form.ofWord text)
  | punctuation p => some (.punctuation p)
  | string value => some (.string value)
  | number digits => some (.number digits)
  | operator op => some (Token.Form.ofOperator op)

def token? (lexeme : Lexeme) (line : Nat) : Option Token :=
  lexeme.form?.map (⟨·, line⟩)

/-- The lexeme as the log shows it. -/
def debug : Lexeme → String
  | insignificant => "Insignificant"
  | word text => "Word(" ++ Text.quote text ++ ")"
  | punctuation p => "Punct(" ++ Text.quoteChar p.char ++ ")"
  | string value => "Str(" ++ Text.quote value ++ ")"
  | number digits => "Number(" ++ Text.quote digits ++ ")"
  | operator op => "Op(" ++ Text.quote op.lexeme ++ ")"

end Lexeme

end FrontEnd
