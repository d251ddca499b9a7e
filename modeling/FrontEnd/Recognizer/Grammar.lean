import FrontEnd.Recognizer.Basic

/-!
# FrontEnd.Recognizer.Grammar

The grammar of programs, one production a definition:

    program             := declaration* EOF
    declaration         := ['extern' | 'static'] (global_var | routine_declaration)
    global_var          := 'var' (var_declaration_list | id_list) ';'
    var_declaration_list := var_declaration (',' var_declaration)*
    var_declaration     := id_list ['=' expression]
    id_list             := IDENTIFIER (',' IDENTIFIER)*
    routine_declaration := routine_header (block | ';')
    routine_header      := 'routine' IDENTIFIER argument_list
    argument_list       := '(' [id_list] ')'
    block               := '{' statement_list '}'
    statement_list      := statement*
    statement           := ';' | label_declaration
    label_declaration   := IDENTIFIER ':'
    expression          := NULL | NUMBER | STRING | IDENTIFIER | BOOL

With `extern`, a variable declaration takes an `id_list` and a routine ends in `;`; otherwise
they take a `var_declaration_list` and a block. A production commits itself with its first
token: what it expects after that, it expects with `cut`.

* `Recognizer.recognize` — the verdict on all tokens.
-/

namespace FrontEnd

namespace Recognizer

namespace Grammar

/-- The kinds that are a constant expression, in the order in which they are tried. -/
def constantKinds : List TokenKind := [.null, .number, .string, .identifier, .bool]

def expression : Recog Unit := do
  if ← constantKinds.anyM matchKind then return () else refuse "constant expression"

def idList : Recog Unit := do
  expect .identifier "identifier"
  repeatWhile do
    if ← matchKind .comma then
      cut (expect .identifier "identifier after ','")
      return true
    else return false

def varDeclaration : Recog Unit := do
  within "id_list" idList
  if ← matchKind .strictAssign then cut (within "expression" expression)

def varDeclarationList : Recog Unit := do
  within "var_declaration" varDeclaration
  repeatWhile do
    if ← matchKind .comma then
      cut (within "var_declaration" varDeclaration)
      return true
    else return false

/-- Reports a declaration that is complete. -/
def report (storage : Storage) (declared : Declared) : Recog Unit :=
  modify fun r => r.announce (.declared r.file r.line storage declared)

/-- The variables of a declaration; external ones have no value. -/
def variableList : Storage → Recog Unit
  | .external => cut (within "id_list" idList)
  | .classic | .static => cut (within "var_declaration_list" varDeclarationList)

def globalVar (storage : Storage) : Recog Unit := do
  expectKeyword .varKw "'var'"
  variableList storage
  cut (expect .semicolon "';' to terminate statement")
  report storage .globalVariable

def argumentList : Recog Unit := do
  expect .lParen "argument list (or empty '()')"
  if ← matchKind .rParen then return ()
  else
    cut (within "id_list" idList)
    cut (expect .rParen "')' to close argument list")

def routineHeader : Recog Unit := do
  expectKeyword .routineKw "'routine'"
  cut (expect .identifier "routine name identifier")
  cut (within "argument_list" argumentList)

def labelDeclaration : Recog Unit := do
  expect .identifier "label"
  cut (expect .colon "':' to end label declaration")

def statement : Recog Unit := do
  if ← matchKind .semicolon then return ()
  else within "label_declaration" labelDeclaration

/-- Statements up to the first that is none. -/
def statementList : Recog Unit := repeatWhile (attempt "statement" statement)

def block : Recog Unit := do
  expect .lBrace "statement block"
  within "statement_list" statementList
  cut (expect .rBrace "closing curly brace '\x7d' to end block")

/-- What follows the header; the body of an external routine is elsewhere. -/
def routineBody : Storage → Recog Unit
  | .external => cut (expect .semicolon "';' to end extern routine declaration")
  | .classic | .static => cut (within "block" block)

def routineDeclaration (storage : Storage) : Recog Unit := do
  within "routine_header" routineHeader
  routineBody storage
  report storage .routine

/-- The storage modifier at the lookahead, if there is one. -/
def storageModifier : Recog Storage := do
  if ← matchKeyword .externKw then return .external
  else if ← matchKeyword .staticKw then return .static
  else return .classic

/-- A routine. Behind a storage modifier it must not be missing. -/
def routine (storage : Storage) : Recog Unit := fun r =>
  match within "routine_declaration" (routineDeclaration storage) r with
  | .error (.refused (.recoverable error)) r' =>
    if storage = .classic then .error (.refused (.recoverable error)) r'
    else cut (refuse "variable or routine declaration after storage modifier") r'
  | result => result

def declaration : Recog Unit := do
  let storage ← storageModifier
  if ← attempt "global_var" (globalVar storage) then return ()
  else routine storage

/-- Only the end of input may follow the declarations. -/
def endOfInput : Recog Unit := fun r =>
  if r.lookahead.kind = .eof then .ok () r
  else .error (.refused (.fatal (r.syntaxError (.expectedEnd r.lookahead)))) r

def program : Recog Unit := do
  repeatWhile (attempt "declaration" declaration)
  endOfInput

end Grammar

/-- Checks all tokens against the grammar. A recognizer that has rejected a program is
poisoned: it looks at nothing more. -/
def recognize : Recog Unit := fun r =>
  if r.poisoned then .error (.refused (.fatal ⟨⟨.poisoned, r.file, r.line⟩, none⟩)) r
  else
    match within "program" Grammar.program (r.note .debug (.recognizing r.file)) with
    | .ok () r' => .ok () (r'.note .debug (.accepted r'.file))
    | .error (.refused refusal) r' =>
      .error (.refused refusal)
        { r'.note .debug (.rejected r'.file refusal) with poisoned := true }
    | .error .misuse r' => .error .misuse r'

end Recognizer

end FrontEnd
