import FrontEnd.Scan.Lexeme

/-!
# FrontEnd.Scan.Rules

The rules by which the next lexeme is taken off the source.

* `Scan` — a lexeme with the text it was read from and the source behind that text.
* `ScanFault` — why no lexeme could be taken.
* `Rule` — a rule answers `none` where it does not apply, and then the next one is tried; once
  it applies it may still be at fault.
* `rules`, `scan` — the rules in their order; what no rule takes is an unexpected character.
-/

namespace FrontEnd

structure Scan where
  lexeme : Lexeme
  text : List Char
  rest : List Char

inductive ScanFault where
  | unexpected (c : Char)
  /-- The text up to and including the second decimal point. -/
  | malformedNumber (text : String)
  | unterminatedString
  | unterminatedComment
  /-- The character after the backslash, with the source passed before that character. -/
  | invalidEscape (passed : List Char) (c : Char)
  deriving DecidableEq, Repr

abbrev Rule := List Char → Option (Except ScanFault Scan)

/-- The characters that may stand between lexemes. -/
def isLayout (c : Char) : Bool := c = ' ' || c = '\t' || c = '\r' || c = '\n'

def isWordStart (c : Char) : Bool := c.isAlpha || c = '_' || c = '$' || c = '%' || c = '#'

/-- A word goes on with letters, digits and underscores only. -/
def isWordPart (c : Char) : Bool := c.isAlphanum || c = '_'

namespace Rule

/-- Two slashes and the rest of their line, its end left out. -/
def lineComment : Rule
  | '/' :: '/' :: rest =>
    some (.ok ⟨.insignificant, '/' :: '/' :: rest.takeWhile (· != '\n'),
      rest.dropWhile (· != '\n')⟩)
  | _ => none

/-- The source split behind its first `*/`. -/
def splitAtClose : List Char → Option (List Char × List Char)
  | [] => none
  | '*' :: '/' :: rest => some (['*', '/'], rest)
  | c :: rest => (splitAtClose rest).map fun (body, after) => (c :: body, after)

/-- From `/*` through the next `*/`, which has to come. -/
def blockComment : Rule
  | '/' :: '*' :: rest =>
    match splitAtClose rest with
    | some (body, after) => some (.ok ⟨.insignificant, '/' :: '*' :: body, after⟩)
    | none => some (.error .unterminatedComment)
  | _ => none

/-- The longest run of layout characters. -/
def layout : Rule := fun source =>
  match source.takeWhile isLayout with
  | [] => none
  | text => some (.ok ⟨.insignificant, text, source.dropWhile isLayout⟩)

def word : Rule
  | [] => none
  | c :: rest =>
    if isWordStart c then
      let text := c :: rest.takeWhile isWordPart
      some (.ok ⟨.word (String.ofList text), text, rest.dropWhile isWordPart⟩)
    else none

def punctuation : Rule
  | [] => none
  | c :: rest => (Punctuation.ofChar? c).map fun p => .ok ⟨.punctuation p, [c], rest⟩

/-- The character that a backslash followed by `c` stands for. -/
def escapeCode? (c : Char) : Option Char :=
  if c = 'n' then some '\n'
  else if c = 't' then some '\t'
  else if c = 'r' then some '\r'
  else if c = '0' then some '\x00'
  else if c = 'b' then some '\x08'
  else if c = '"' then some '"'
  else none

/-- What follows the opening quote of a string literal. -/
inductive StringBody where
  /-- The value, the text through the closing quote, and the source behind it. -/
  | closed (value text rest : List Char)
  | invalidEscape (passed : List Char) (c : Char)
  | unclosed
  deriving DecidableEq, Repr

namespace StringBody

/-- The body with `text`, which stands for `c`, in front. -/
def prepend (c : Char) (text : List Char) : StringBody → StringBody
  | closed value text' rest => closed (c :: value) (text ++ text') rest
  | invalidEscape passed c' => invalidEscape (text ++ passed) c'
  | unclosed => unclosed

/-- Characters stand for themselves up to the closing quote; a backslash makes one escape with
the character behind it. -/
def read : List Char → StringBody
  | [] => unclosed
  | [c] => if c = '"' then closed [] ['"'] [] else unclosed
  | c :: d :: rest =>
    if c = '"' then closed [] ['"'] (d :: rest)
    else if c = '\\' then
      match escapeCode? d with
      | some value => (read rest).prepend value ['\\', d]
      | none => invalidEscape ['\\'] d
    else (read (d :: rest)).prepend c [c]

end StringBody

def string : Rule
  | '"' :: rest =>
    match StringBody.read rest with
    | .closed value text after => some (.ok ⟨.string (String.ofList value), '"' :: text, after⟩)
    | .invalidEscape passed c => some (.error (.invalidEscape ('"' :: passed) c))
    | .unclosed => some (.error .unterminatedString)
  | _ => none

/-- Digits, then perhaps a point and more digits; a second point must not follow. -/
def number : Rule := fun source =>
  let whole := source.takeWhile Char.isDigit
  if whole = [] then none
  else
    match source.dropWhile Char.isDigit with
    | '.' :: after =>
      let text := whole ++ '.' :: after.takeWhile Char.isDigit
      match after.dropWhile Char.isDigit with
      | '.' :: _ => some (.error (.malformedNumber (String.ofList (text ++ ['.']))))
      | rest => some (.ok ⟨.number (String.ofList text), text, rest⟩)
    | rest => some (.ok ⟨.number (String.ofList whole), whole, rest⟩)

/-- The operator that the first `length` characters spell. -/
def operatorOf (length : Nat) : Rule := fun source =>
  (Operator.scanned? (String.ofList (source.take length))).map fun op =>
    .ok ⟨.operator op, source.take length, source.drop length⟩

/-- The longest operator at the front. -/
def operator : Rule := fun source =>
  ((operatorOf 3 source).or (operatorOf 2 source)).or (operatorOf 1 source)

end Rule

def rules : List Rule :=
  [Rule.lineComment, Rule.blockComment, Rule.layout, Rule.word, Rule.punctuation, Rule.string,
    Rule.number, Rule.operator]

/-- The lexeme at the front of the source `c :: rest`. -/
def scan (c : Char) (rest : List Char) : Except ScanFault Scan :=
  (rules.findSome? (· (c :: rest))).getD (.error (.unexpected c))

end FrontEnd
