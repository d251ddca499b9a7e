/-!
# FrontEnd.Located

* `Located` — an error together with the place it is reported at.
* `Located.message` — its text: the error's own, then the place on a line of its own.
-/

namespace FrontEnd

structure Located (ε : Type) where
  error : ε
  file : String
  line : Nat
  deriving DecidableEq, Repr

/-- The error as `describe` words it, followed by file and line. -/
def Located.message {ε : Type} (describe : ε → String) (located : Located ε) : String :=
  describe located.error ++ "\n  -> " ++ located.file ++ ":" ++ toString located.line

end FrontEnd
