import FrontEnd.Text.Unprintable

/-!
# FrontEnd.Text.Quoted

Text between quotes, as messages and log lines show it: on one line, and with no character
that could not be seen.

* `escapeIn` — how one character is written between the given quotes.
* `quote` — a text in double quotes.
* `quoteChar` — a character in single quotes.
-/

namespace FrontEnd.Text

/-- Hexadecimal digits in lower case, without leading zeros. -/
def hexDigits (n : Nat) : List Char := Nat.toDigits 16 n

/-- The character inside a text delimited by `delimiter`. -/
def escapeIn (delimiter c : Char) : List Char :=
  if c = '\x00' then ['\\', '0']
  else if c = '\t' then ['\\', 't']
  else if c = '\r' then ['\\', 'r']
  else if c = '\n' then ['\\', 'n']
  else if c = '\\' ∨ c = delimiter then ['\\', c]
  else if isUnprintable c then ['\\', 'u', '\x7b'] ++ hexDigits c.toNat ++ ['\x7d']
  else [c]

def quote (text : String) : String :=
  String.ofList (['"'] ++ text.toList.flatMap (escapeIn '"') ++ ['"'])

def quoteChar (c : Char) : String :=
  String.ofList (['\''] ++ escapeIn '\'' c ++ ['\''])

end FrontEnd.Text
