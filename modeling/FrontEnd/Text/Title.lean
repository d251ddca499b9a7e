/-!
# FrontEnd.Text.Title

Title case for the ASCII words that name kinds and keywords.

* `titleWord` — one word with a capital at its head and small letters behind it.
* `title` — words joined by underscores, each in title case, without the underscores.
-/

namespace FrontEnd.Text

def titleWord : List Char → List Char
  | [] => []
  | c :: rest => c.toUpper :: rest.map Char.toLower

/-- Every word in title case, joined without what separated them. -/
def title (text : String) : String :=
  String.ofList ((text.toList.splitOn '_').flatMap titleWord)

end FrontEnd.Text
