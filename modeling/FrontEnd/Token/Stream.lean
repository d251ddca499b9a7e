import FrontEnd.Token.Basic

/-!
# FrontEnd.Token.Stream

Tokens in the order in which they are read.

* `TokenStream.Same` — streams alike token by token, lines apart.
* `TokenStream.sourceText` — one line of source text that scans to the tokens.
-/

namespace FrontEnd

abbrev TokenStream := List Token

namespace TokenStream

/-- Whether two streams hold like tokens in the same order. -/
def Same (a b : TokenStream) : Prop := a.map Token.form = b.map Token.form

instance (a b : TokenStream) : Decidable (Same a b) :=
  inferInstanceAs (Decidable (a.map Token.form = b.map Token.form))

/-- The tokens' source texts with a blank between any two; an end of input has no text. -/
def sourceText (tokens : TokenStream) : String :=
  " ".intercalate ((tokens.filter (·.kind != .eof)).map Token.sourceText)

end TokenStream

end FrontEnd
