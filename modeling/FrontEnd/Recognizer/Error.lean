import FrontEnd.Located
import FrontEnd.Token.Basic

/-!
# FrontEnd.Recognizer.Error

What stops a production.

* `SyntaxError` — what was wrong, where, and which productions were open there.
* `Refusal` — a syntax error that either lets another alternative be tried or does not.
* `Stop` — a refusal, or a tentative production that broke its contract.
-/

namespace FrontEnd

inductive SyntaxFault where
  | expected (what : String) (found : Token)
  | expectedEnd (found : Token)
  /-- Asked to go on after a program had been rejected. -/
  | poisoned
  deriving DecidableEq

namespace SyntaxFault

def message : SyntaxFault → String
  | expected what found => "expected " ++ what ++ ", found " ++ found.display
  | expectedEnd found => "expected end of input, found " ++ found.display
  | poisoned => "attempting to continue parsing but parser was poisoned"

/-- The token that could not be matched. -/
def found? : SyntaxFault → Option Token
  | expected _ found => some found
  | expectedEnd found => some found
  | poisoned => none

end SyntaxFault

structure SyntaxError where
  located : Located SyntaxFault
  /-- The names of the open productions, the outermost first. -/
  path : Option (List String)
  deriving DecidableEq

namespace SyntaxError

/-- The names, one to a line, numbered from `index` on. -/
def pathLines (index : Nat) : List String → String
  | [] => ""
  | name :: rest => "  " ++ toString index ++ ": " ++ name ++ "\n" ++ pathLines (index + 1) rest

def message (error : SyntaxError) : String :=
  "syntax error: " ++ error.located.message SyntaxFault.message ++ "\n" ++
    match error.path with
    | none => ""
    | some names => "non terminal stack:\n" ++ pathLines 0 names

def found? (error : SyntaxError) : Option Token := error.located.error.found?

end SyntaxError

inductive Refusal where
  /-- Nothing was consumed, and another alternative may be tried. -/
  | recoverable (error : SyntaxError)
  | fatal (error : SyntaxError)
  deriving DecidableEq

namespace Refusal

/-- The refusal after a production has committed itself. -/
def cut : Refusal → Refusal
  | recoverable error => fatal error
  | fatal error => fatal error

def isFatal : Refusal → Bool
  | recoverable _ => false
  | fatal _ => true

def error : Refusal → SyntaxError
  | recoverable error => error
  | fatal error => error

def message : Refusal → String
  | recoverable error => "recoverable error: " ++ error.message
  | fatal error => "unrecoverable error: " ++ error.message

end Refusal

inductive Stop where
  | refused (refusal : Refusal)
  /-- A production that was only tried consumed tokens and then asked for an alternative. -/
  | misuse
  deriving DecidableEq

end FrontEnd
