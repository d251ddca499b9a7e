import FrontEnd.Text.Title

/-!
# FrontEnd.Lexeme.Word

The words that are not identifiers.

* `Keyword` — the reserved words, with their `lexeme`.
* `LiteralWord` — the words that stand for a value.
* `Keyword.ofLexeme?_eq_some_iff` — a word is found exactly under its own lexeme; the same
  for literal words.
-/

namespace FrontEnd

inductive Keyword where
  | routineKw
  | makeKw
  | letKw
  | getKw
  | registerKw
  | finalizeKw
  | varKw
  | undefKw
  | gotoKw
  | ifKw
  | elseKw
  | doKw
  | whileKw
  | forKw
  | unlessKw
  | returnKw
  | enumKw
  | structKw
  | staticKw
  | externKw
  deriving DecidableEq, Repr

namespace Keyword

def all : List Keyword :=
  [routineKw, makeKw, letKw, getKw, registerKw, finalizeKw, varKw, undefKw, gotoKw, ifKw,
    elseKw, doKw, whileKw, forKw, unlessKw, returnKw, enumKw, structKw, staticKw, externKw]

def lexeme : Keyword → String
  | routineKw => "routine"
  | makeKw => "make"
  | letKw => "let"
  | getKw => "get"
  | registerKw => "register"
  | finalizeKw => "finalize"
  | varKw => "var"
  | undefKw => "undef"
  | gotoKw => "goto"
  | ifKw => "if"
  | elseKw => "else"
  | doKw => "do"
  | whileKw => "while"
  | forKw => "for"
  | unlessKw => "unless"
  | returnKw => "return"
  | enumKw => "enum"
  | structKw => "struct"
  | staticKw => "static"
  | externKw => "extern"

def name (keyword : Keyword) : String := Text.title keyword.lexeme

/-- The keyword written exactly so; case matters. -/
def ofLexeme? (lexeme : String) : Option Keyword := all.find? (·.lexeme == lexeme)

theorem ofLexeme?_lexeme (keyword : Keyword) : ofLexeme? keyword.lexeme = some keyword := by
  cases keyword <;> decide

theorem ofLexeme?_eq_some_iff {lexeme : String} {keyword : Keyword} :
    ofLexeme? lexeme = some keyword ↔ keyword.lexeme = lexeme := by
  constructor
  · intro h
    have found := List.find?_some h
    exact eq_of_beq found
  · rintro rfl
    exact ofLexeme?_lexeme keyword

end Keyword

inductive LiteralWord where
  | nullWord
  | trueWord
  | falseWord
  deriving DecidableEq, Repr

namespace LiteralWord

def all : List LiteralWord := [nullWord, trueWord, falseWord]

def lexeme : LiteralWord → String
  | nullWord => "null"
  | trueWord => "true"
  | falseWord => "false"

def name (word : LiteralWord) : String := Text.title word.lexeme

/-- The literal word written exactly so; case matters. -/
def ofLexeme? (lexeme : String) : Option LiteralWord := all.find? (·.lexeme == lexeme)

theorem ofLexeme?_lexeme (word : LiteralWord) : ofLexeme? word.lexeme = some word := by
  cases word <;> decide

theorem ofLexeme?_eq_some_iff {lexeme : String} {word : LiteralWord} :
    ofLexeme? lexeme = some word ↔ word.lexeme = lexeme := by
  constructor
  · intro h
    have found := List.find?_some h
    exact eq_of_beq found
  · rintro rfl
    exact ofLexeme?_lexeme word

end LiteralWord

end FrontEnd
