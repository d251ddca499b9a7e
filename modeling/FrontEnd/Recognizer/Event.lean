import FrontEnd.Log
import FrontEnd.Recognizer.Error

/-!
# FrontEnd.Recognizer.Event

* `Storage` — the storage modifier in front of a declaration.
* `RecognizerEvent` — what the recognizer reports: matches and rejections, finished
  declarations, the productions entered and left, and the verdict on a program.
-/

namespace FrontEnd

inductive Storage where
  /-- No modifier. -/
  | classic
  | external
  | static
  deriving DecidableEq, Repr

def Storage.name : Storage → String
  | classic => "classic"
  | external => "extern"
  | static => "static"

inductive Declared where
  | globalVariable
  | routine
  deriving DecidableEq, Repr

def Declared.name : Declared → String
  | globalVariable => "global variable declaration"
  | routine => "routine declaration"

inductive RecognizerEvent where
  | matchedToken (token : Token)
  | rejectedToken (token : Token) (wanted : TokenKind)
  | matchedKeyword (keyword : Keyword)
  | rejectedKeyword (token : Token) (wanted : Keyword)
  | declared (file : String) (line : Nat) (storage : Storage) (declared : Declared)
  | entering (name : String) (lookahead : Token)
  | leaving (name : String) (lookahead : Token)
  | recognizing (file : String)
  | accepted (file : String)
  | rejected (file : String) (refusal : Refusal)
  deriving DecidableEq

namespace RecognizerEvent

def message : RecognizerEvent → String
  | matchedToken token => "Matched token " ++ token.display
  | rejectedToken token wanted =>
    "Rejected " ++ token.display ++ " (" ++ wanted.label ++ " would have matched)"
  | matchedKeyword keyword => "Matched keyword '" ++ keyword.lexeme ++ "'"
  | rejectedKeyword token wanted =>
    "Rejected " ++ token.display ++ " (" ++ wanted.lexeme ++ " could have matched)"
  | declared file line storage what =>
    file ++ ":" ++ toString line ++ "> Matched " ++ storage.name ++ " " ++ what.name
  | entering name lookahead => "starting parsing " ++ name ++ " lookahead=" ++ lookahead.debug
  | leaving name lookahead => "after parsing " ++ name ++ " lookahead=" ++ lookahead.debug
  | recognizing file => "recognizing " ++ file
  | accepted file => file ++ " is a valid program"
  | rejected file refusal => file ++ " was rejected with " ++ refusal.message

end RecognizerEvent

/-- An event with the level it was reported at. -/
structure Report where
  level : Level
  event : RecognizerEvent
  deriving DecidableEq

def Report.logLine (report : Report) : LogLine :=
  ⟨report.level, .recognizer, report.event.message⟩

end FrontEnd
