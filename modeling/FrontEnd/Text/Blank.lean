/-!
# FrontEnd.Text.Blank

White space as the Unicode property `White_Space` has it, and the words between it.

* `isBlank` — the property.
* `words` — the maximal runs of other characters, in order.
* `trimEnd` — a text without the white space at its end.
* `lineBreaks` — the number of line feeds, which is what counts as a line here.
-/

namespace FrontEnd.Text

/-- The white space characters: tab to carriage return, the blank, next line, the no-break
blanks, the spaces of typography, and the line and paragraph separators. -/
def isBlank (c : Char) : Bool :=
  let n := c.toNat
  (9 ≤ n && n ≤ 13) || n == 0x20 || n == 0x85 || n == 0xA0 || n == 0x1680
    || (0x2000 ≤ n && n ≤ 0x200A) || n == 0x2028 || n == 0x2029 || n == 0x202F
    || n == 0x205F || n == 0x3000

theorem isBlank_of_isWhitespace {c : Char} (h : c.isWhitespace = true) : isBlank c = true := by
  simp only [Char.isWhitespace, Bool.or_eq_true, decide_eq_true_eq] at h
  rcases h with ((h | h) | h) | h <;> subst h <;> rfl

/-- The maximal runs of characters other than white space. -/
def words : List Char → List String
  | [] => []
  | c :: rest =>
    if isBlank c then words rest
    else
      String.ofList (c :: rest.takeWhile (!isBlank ·)) :: words (rest.dropWhile (!isBlank ·))
termination_by text => text.length
decreasing_by
  · simp
  · have := (List.dropWhile_sublist (!isBlank ·) (l := rest)).length_le
    simp only [List.length_cons]; omega

def trimEnd (text : String) : String :=
  String.ofList (text.toList.reverse.dropWhile isBlank).reverse

def lineBreaks (text : List Char) : Nat := text.count '\n'

@[simp] theorem lineBreaks_nil : lineBreaks [] = 0 := rfl

@[simp] theorem lineBreaks_append (a b : List Char) :
    lineBreaks (a ++ b) = lineBreaks a + lineBreaks b := List.count_append

end FrontEnd.Text
