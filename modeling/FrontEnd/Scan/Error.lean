import FrontEnd.Scan.Rules
import FrontEnd.Source
import FrontEnd.Text.Blank

/-!
# FrontEnd.Scan.Error

* `ScanError` — what ends a scan early, with the line it is reported on.
* `ScanFault.atLine` — the error of a fault in a lexeme that begins on a given line. Only a bad
  escape can be on a later line than its lexeme.
-/

namespace FrontEnd

inductive ScanError where
  | unexpected (c : Char) (line : Nat)
  | malformedNumber (text : String) (line : Nat)
  | unterminatedString (line : Nat)
  | unterminatedComment (line : Nat)
  | invalidEscape (c : Char) (line : Nat)
  | unreadable (fault : ReadFault)
  deriving DecidableEq, Repr

namespace ScanError

def message : ScanError → String
  | unexpected c line => "invalid char " ++ Text.quoteChar c ++ " on line " ++ toString line
  | malformedNumber text line =>
    "malformed number " ++ Text.quote text ++ " on line " ++ toString line
      ++ ": a number may contain only one decimal point"
  | unterminatedString line =>
    "unterminated string literal starting on line " ++ toString line
  | unterminatedComment line =>
    "unterminated block comment starting on line " ++ toString line
  | invalidEscape c line =>
    "invalid escape sequence '\\" ++ String.singleton c ++ "' on line " ++ toString line
  | unreadable fault => fault.message

/-- The line the error is on; a file that cannot be read has none. -/
def line? : ScanError → Option Nat
  | unexpected _ line => some line
  | malformedNumber _ line => some line
  | unterminatedString line => some line
  | unterminatedComment line => some line
  | invalidEscape _ line => some line
  | unreadable _ => none

end ScanError

def ScanFault.atLine (line : Nat) : ScanFault → ScanError
  | unexpected c => .unexpected c line
  | malformedNumber text => .malformedNumber text line
  | unterminatedString => .unterminatedString line
  | unterminatedComment => .unterminatedComment line
  | invalidEscape passed c => .invalidEscape c (line + Text.lineBreaks passed)

end FrontEnd
