/-!
# FrontEnd.Source

Source files, as bytes that may be missing or no text.

* `ReadFault` — why a file gives no source text.
* `sourceText` — the text of a file's bytes.
-/

namespace FrontEnd

inductive ReadFault where
  | notFound
  | notText
  /-- Any other reason, in the system's words. -/
  | refused (reason : String)
  deriving DecidableEq, Repr

def ReadFault.message : ReadFault → String
  | notFound => "No such file or directory (os error 2)"
  | notText => "stream did not contain valid UTF-8"
  | refused reason => reason

/-- The text of a file, whose bytes are text only if they are UTF-8. -/
def sourceText (bytes : Except ReadFault ByteArray) : Except ReadFault String :=
  match bytes with
  | .error fault => .error fault
  | .ok bytes =>
    match String.fromUTF8? bytes with
    | some text => .ok text
    | none => .error .notText

end FrontEnd
