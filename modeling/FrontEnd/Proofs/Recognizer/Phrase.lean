import FrontEnd.Recognizer.Event

/-!
# FrontEnd.Proofs.Recognizer.Phrase

The grammar of programs as a context-free grammar, apart from the recognizer that decides it.

* `Terminal` — what the grammar sees of a token: its kind, and of a keyword which one it is.
* `Production`, `Phrase` — the names of the grammar and what may stand on their right sides.
* `Production.rhs` — the grammar. It is ambiguous: `var a, b;` declares two variables in one
  list of names, or in two lists.
* `Derives` — which words a phrase stands for.
* `DerivesAll` — the same for phrases one after the other, with one equation for each kind of
  phrase at the front (`derivesAll_many_cons`, …).
-/

namespace FrontEnd

inductive Terminal where
  | keyword (keyword : Keyword)
  | kind (kind : TokenKind)
  deriving DecidableEq

def Token.terminal (token : Token) : Terminal :=
  match token.form with
  | .keyword k => .keyword k
  | form => .kind form.kind

inductive Production where
  | program
  | declaration
  | globalVar (storage : Storage)
  | varDeclarationList
  | varDeclaration
  | idList
  | routineDeclaration (storage : Storage)
  | routineHeader
  | argumentList
  | block
  | statement
  | labelDeclaration
  | expression
  deriving DecidableEq

inductive Phrase where
  | empty
  | terminal (terminal : Terminal)
  | production (production : Production)
  | sequence (first second : Phrase)
  | choice (one other : Phrase)
  /-- Any number of times, also none. -/
  | many (body : Phrase)

namespace Phrase

instance : Append Phrase := ⟨sequence⟩

instance : HOr Phrase Phrase Phrase := ⟨choice⟩

def keyword (k : Keyword) : Phrase := terminal (.keyword k)

def token (kind : TokenKind) : Phrase := terminal (.kind kind)

def optional (body : Phrase) : Phrase := body ||| empty

end Phrase

namespace Production

open Phrase

/-- What may be declared behind a storage modifier, or behind none. -/
def declared (storage : Storage) : Phrase :=
  production (globalVar storage) ||| production (routineDeclaration storage)

/-- External variables have names only. -/
def variableList : Storage → Phrase
  | .external => production idList
  | .classic | .static => production varDeclarationList

/-- External routines have no block. -/
def routineBody : Storage → Phrase
  | .external => token .semicolon
  | .classic | .static => production block

/-- The grammar. -/
def rhs : Production → Phrase
  | program => many (production declaration)
  | declaration =>
    declared .classic ||| (keyword .externKw ++ declared .external)
      ||| (keyword .staticKw ++ declared .static)
  | globalVar storage => keyword .varKw ++ variableList storage ++ token .semicolon
  | varDeclarationList =>
    production varDeclaration ++ many (token .comma ++ production varDeclaration)
  | varDeclaration =>
    production idList ++ optional (token .strictAssign ++ production expression)
  | idList => token .identifier ++ many (token .comma ++ token .identifier)
  | routineDeclaration storage => production routineHeader ++ routineBody storage
  | routineHeader =>
    keyword .routineKw ++ token .identifier ++ production argumentList
  | argumentList =>
    token .lParen ++ (token .rParen ||| (production idList ++ token .rParen))
  | block => token .lBrace ++ many (production statement) ++ token .rBrace
  | statement => token .semicolon ||| production labelDeclaration
  | labelDeclaration => token .identifier ++ token .colon
  | expression =>
    token .null ||| token .number ||| token .string ||| token .identifier ||| token .bool

end Production

/-- A word that can be derived from a phrase. -/
inductive Derives : Phrase → List Terminal → Prop where
  | empty : Derives .empty []
  | terminal {t : Terminal} : Derives (.terminal t) [t]
  | production {p : Production} {w : List Terminal} : Derives p.rhs w → Derives (.production p) w
  | sequence {a b : Phrase} {u v : List Terminal} :
      Derives a u → Derives b v → Derives (.sequence a b) (u ++ v)
  | one {a b : Phrase} {w : List Terminal} : Derives a w → Derives (.choice a b) w
  | other {a b : Phrase} {w : List Terminal} : Derives b w → Derives (.choice a b) w
  | none {a : Phrase} : Derives (.many a) []
  | more {a : Phrase} {u v : List Terminal} :
      Derives a u → Derives (.many a) v → Derives (.many a) (u ++ v)

/-- A word that can be derived from phrases one after the other. -/
def DerivesAll : List Phrase → List Terminal → Prop
  | [], w => w = []
  | a :: rest, w => ∃ u v, w = u ++ v ∧ Derives a u ∧ DerivesAll rest v

section Equations

variable {a b : Phrase} {rest : List Phrase} {t x : Terminal} {w : List Terminal}

@[simp] theorem derivesAll_nil : DerivesAll [] w ↔ w = [] := Iff.rfl

theorem derivesAll_singleton : DerivesAll [a] w ↔ Derives a w := by
  constructor
  · intro h
    obtain ⟨u, v, rfl, ha, rfl⟩ := h
    rwa [List.append_nil]
  · intro h
    exact ⟨w, [], by simp, h, rfl⟩

@[simp] theorem derivesAll_empty :
    DerivesAll (.empty :: rest) w ↔ DerivesAll rest w := by
  constructor
  · intro h
    obtain ⟨u, v, rfl, ha, hr⟩ := h
    cases ha
    exact hr
  · intro h
    exact ⟨[], w, rfl, .empty, h⟩

@[simp] theorem derivesAll_terminal_nil : ¬DerivesAll (.terminal t :: rest) [] := by
  intro h
  obtain ⟨u, v, huv, ha, -⟩ := h
  cases ha
  cases huv

@[simp] theorem derivesAll_terminal_cons :
    DerivesAll (.terminal t :: rest) (x :: w) ↔ x = t ∧ DerivesAll rest w := by
  constructor
  · intro h
    obtain ⟨u, v, huv, ha, hr⟩ := h
    cases ha
    obtain ⟨rfl, rfl⟩ := List.cons.inj huv
    exact ⟨rfl, hr⟩
  · intro h
    obtain ⟨rfl, hr⟩ := h
    exact ⟨[x], w, rfl, .terminal, hr⟩

theorem derivesAll_production {p : Production} :
    DerivesAll (.production p :: rest) w ↔ DerivesAll (p.rhs :: rest) w := by
  constructor
  · intro h
    obtain ⟨u, v, rfl, ha, hr⟩ := h
    cases ha with
    | production ha => exact ⟨u, v, rfl, ha, hr⟩
  · intro h
    obtain ⟨u, v, rfl, ha, hr⟩ := h
    exact ⟨u, v, rfl, .production ha, hr⟩

@[simp] theorem derivesAll_append :
    DerivesAll ((a ++ b) :: rest) w ↔ DerivesAll (a :: b :: rest) w := by
  constructor
  · intro h
    obtain ⟨u, v, rfl, hab, hr⟩ := h
    cases hab with
    | sequence ha hb => exact ⟨_, _, by rw [List.append_assoc], ha, _, _, rfl, hb, hr⟩
  · intro h
    obtain ⟨u, v, rfl, ha, u', v', rfl, hb, hr⟩ := h
    exact ⟨u ++ u', v', by rw [List.append_assoc], .sequence ha hb, hr⟩

@[simp] theorem derivesAll_or :
    DerivesAll ((a ||| b) :: rest) w ↔ DerivesAll (a :: rest) w ∨ DerivesAll (b :: rest) w := by
  constructor
  · intro h
    obtain ⟨u, v, rfl, hab, hr⟩ := h
    cases hab with
    | one ha => exact .inl ⟨u, v, rfl, ha, hr⟩
    | other hb => exact .inr ⟨u, v, rfl, hb, hr⟩
  · intro h
    rcases h with ⟨u, v, rfl, ha, hr⟩ | ⟨u, v, rfl, hb, hr⟩
    · exact ⟨u, v, rfl, .one ha, hr⟩
    · exact ⟨u, v, rfl, .other hb, hr⟩

@[simp] theorem derivesAll_many_nil :
    DerivesAll (.many a :: rest) [] ↔ DerivesAll rest [] := by
  constructor
  · intro h
    obtain ⟨u, v, huv, -, hr⟩ := h
    obtain ⟨rfl, rfl⟩ := List.append_eq_nil_iff.1 huv.symm
    exact hr
  · intro hr
    exact ⟨[], [], rfl, .none, hr⟩

/-- The word goes on with another round, or behind the rounds. -/
@[simp] theorem derivesAll_many_cons :
    DerivesAll (.many a :: rest) (x :: w) ↔
      DerivesAll (a :: .many a :: rest) (x :: w) ∨ DerivesAll rest (x :: w) := by
  constructor
  · intro h
    obtain ⟨u, v, huv, hm, hr⟩ := h
    rw [huv]
    cases hm with
    | none => exact .inr hr
    | more ha hm =>
      exact .inl ⟨_, _, by rw [List.append_assoc], ha, _, _, rfl, hm, hr⟩
  · intro h
    rcases h with ⟨u, v, huv, ha, u', v', rfl, hm, hr⟩ | hr
    · exact ⟨u ++ u', v', by rw [huv, List.append_assoc], .more ha hm, hr⟩
    · exact ⟨[], x :: w, rfl, .none, hr⟩

end Equations

end FrontEnd
