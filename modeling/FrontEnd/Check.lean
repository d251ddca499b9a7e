import FrontEnd.Recognizer.Grammar
import FrontEnd.Scan.Scanner

/-!
# FrontEnd.Check

A source on its way from text to verdict.

* `FrontEndError` — the first error of reading, scanning or recognizing.
* `Checked` — what a check came to, with all it wrote to the log.
* `Check.openText`, `Check.openFile` — scan everything and give a recognizer at its beginning.
* `Check.text`, `Check.file` — the verdict on a source.
-/

namespace FrontEnd

inductive FrontEndError where
  | unreadable (fault : ReadFault)
  | unscannable (error : ScanError)
  | rejected (error : SyntaxError)
  /-- A production of the grammar consumed tokens and then asked for an alternative. -/
  | misuse
  deriving DecidableEq

def FrontEndError.message : FrontEndError → String
  | unreadable fault => fault.message
  | unscannable error => error.message
  | rejected error => error.message
  | misuse => "production consumed tokens before failing recoverably"

structure Checked (α : Type) where
  result : Except FrontEndError α
  log : List LogLine

/-- The recognizer's verdict, and the recognizer afterwards. -/
def Recognizer.verdict (r : Recognizer) : Except FrontEndError Unit × Recognizer :=
  match r.recognize with
  | .ok () r' => (.ok (), r')
  | .error (.refused refusal) r' => (.error (.rejected refusal.error), r')
  | .error .misuse r' => (.error .misuse, r')

def Recognizer.log (r : Recognizer) : List LogLine := r.reports.toList.map Report.logLine

namespace Check

/-- A recognizer for the tokens of a text. `verbose` is about recognizing only. -/
def openText (text label : String) (verbose : Bool) : Checked Recognizer :=
  let outcome := (Scanner.ofSource text false).tokens
  let log := outcome.events.map ScanEvent.logLine
  match outcome.result with
  | .error error => ⟨.error (.unscannable error), log⟩
  | .ok tokens => ⟨.ok (Recognizer.ofTokens tokens label verbose), log⟩

/-- A recognizer for the tokens of a file, whose path is its label. -/
def openFile (path : String) (bytes : Except ReadFault ByteArray) (verbose : Bool) :
    Checked Recognizer :=
  match sourceText bytes with
  | .error fault => ⟨.error (.unreadable fault), []⟩
  | .ok text => openText text path verbose

/-- Has what was opened recognized. -/
def recognize (opened : Checked Recognizer) : Checked Unit :=
  match opened.result with
  | .error error => ⟨.error error, opened.log⟩
  | .ok recognizer =>
    let (result, after) := recognizer.verdict
    ⟨result, opened.log ++ after.log⟩

def text (text label : String) : Checked Unit := recognize (openText text label false)

def file (path : String) (bytes : Except ReadFault ByteArray) : Checked Unit :=
  recognize (openFile path bytes false)

end Check

/-- A scanner for a file. -/
def Scanner.ofFile (bytes : Except ReadFault ByteArray) (verbose : Bool) :
    Except ScanError Scanner :=
  match sourceText bytes with
  | .error fault => .error (.unreadable fault)
  | .ok text => .ok (Scanner.ofSource text verbose)

end FrontEnd
