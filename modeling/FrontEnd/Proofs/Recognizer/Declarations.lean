import FrontEnd.Proofs.Recognizer.Follows

/-!
# FrontEnd.Proofs.Recognizer.Declarations

The words of declarations, and how they stand one behind the other.

* `derives_declaration_iff`, `exists_rest_of_derives` — a declaration is a modifier if it has one,
  a keyword, and then at least a name, but no other keyword.
* `Control.eq_nil_of_run` — so the grammar does not come back to the top inside of it.
* `Control.derives_of_run` — a word like a declaration that leads to the top is a declaration;
  `Control.not_derives_front` — one that leads elsewhere does not even begin with one.
* `TokenStream.Splits` — tokens divided into declarations and what is left in the end;
  `TokenStream.Splits.unique` — there is no other way to divide them so.
-/

namespace FrontEnd

def Storage.modifier : Storage → List Terminal
  | classic => []
  | external => [.keyword .externKw]
  | static => [.keyword .staticKw]

def Declared.keyword : Declared → Keyword
  | globalVariable => .varKw
  | routine => .routineKw

def Declared.production (storage : Storage) : Declared → Production
  | globalVariable => .globalVar storage
  | routine => .routineDeclaration storage

def Terminal.isKeyword : Terminal → Bool
  | keyword _ => true
  | kind _ => false

theorem TokenStream.plain_terminals {tokens : TokenStream}
    (h : ∀ token ∈ tokens, token.kind ≠ .keyword) :
    ∀ t ∈ tokens.map Token.terminal, t.isKeyword = false := by
  refine List.forall_mem_map.2 fun token hmem => ?_
  unfold Token.terminal
  split
  · rename_i hform
    exact absurd (congrArg Token.Form.kind hform) (h token hmem)
  · rfl

/-- Productions with no keyword in them. -/
def Production.isPlain : Production → Bool
  | program | declaration | globalVar _ | routineDeclaration _ | routineHeader => false
  | varDeclarationList | varDeclaration | idList | argumentList | block | statement
  | labelDeclaration | expression => true

def Phrase.isPlain : Phrase → Bool
  | empty => true
  | terminal t => !t.isKeyword
  | production p => p.isPlain
  | sequence a b => a.isPlain && b.isPlain
  | choice a b => a.isPlain && b.isPlain
  | many a => a.isPlain

theorem Production.isPlain_rhs {p : Production} (h : p.isPlain = true) : p.rhs.isPlain = true := by
  cases p <;> first | rfl | cases h

theorem Derives.plain {phrase : Phrase} {w : List Terminal} (h : Derives phrase w)
    (hp : phrase.isPlain = true) : ∀ t ∈ w, t.isKeyword = false := by
  induction h with
  | empty => exact List.forall_mem_nil _
  | terminal => exact List.forall_mem_singleton.2 (Bool.not_eq_true' _ ▸ hp)
  | production _ ih => exact ih (Production.isPlain_rhs hp)
  | sequence _ _ iha ihb =>
    obtain ⟨ha, hb⟩ := Bool.and_eq_true_iff.1 hp
    exact List.forall_mem_append.2 ⟨iha ha, ihb hb⟩
  | one _ ih => exact ih (Bool.and_eq_true_iff.1 hp).1
  | other _ ih => exact ih (Bool.and_eq_true_iff.1 hp).2
  | none => exact List.forall_mem_nil _
  | more _ _ iha ihm => exact List.forall_mem_append.2 ⟨iha hp, ihm hp⟩

/-- Behind its keyword a declaration has at least a name, and no other keyword. -/
theorem exists_rest_of_derives {storage : Storage} {what : Declared} {w : List Terminal}
    (h : Derives (.production (what.production storage)) w) :
    ∃ rest, w = .keyword what.keyword :: rest ∧ rest ≠ [] ∧ ∀ t ∈ rest, t.isKeyword = false := by
  cases what with
  | globalVariable =>
    cases h with
    | production h => cases h with
      | sequence h hend => cases h with
        | @sequence _ _ _ names hkeyword hnames =>
          cases hkeyword
          have plain : (Production.variableList storage).isPlain = true := by cases storage <;> rfl
          refine ⟨names ++ _, rfl, ?_, List.forall_mem_append.2 ⟨hnames.plain plain,
            hend.plain rfl⟩⟩
          cases hend
          exact List.append_ne_nil_of_right_ne_nil _ (List.cons_ne_nil _ _)
  | routine =>
    cases h with
    | production h => cases h with
      | @sequence _ _ _ body h hbody => cases h with
        | production h => cases h with
          | @sequence _ _ _ arguments h harguments => cases h with
            | sequence hkeyword hname =>
              cases hkeyword
              cases hname
              have plain : (Production.routineBody storage).isPlain = true := by
                cases storage <;> rfl
              refine ⟨.kind .identifier :: arguments ++ body, rfl, List.cons_ne_nil _ _,
                List.forall_mem_append.2 ⟨List.forall_mem_cons.2 ⟨rfl, harguments.plain rfl⟩,
                  hbody.plain plain⟩⟩

/-- In front of what is declared there is nothing but the modifier. -/
theorem derives_declaration_iff {w : List Terminal} :
    Derives (.production .declaration) w ↔ ∃ storage what declared,
      w = Storage.modifier storage ++ declared ∧
        Derives (.production (Declared.production storage what)) declared := by
  have either {storage : Storage} {declared : List Terminal} :
      Derives (Production.declared storage) declared ↔
        ∃ what, Derives (.production (Declared.production storage what)) declared := by
    constructor
    · intro h
      cases h with
      | one h => exact ⟨.globalVariable, h⟩
      | other h => exact ⟨.routine, h⟩
    · rintro ⟨_ | _, h⟩
      · exact .one h
      · exact .other h
  constructor
  · intro h
    cases h with
    | production h => cases h with
      | one h => cases h with
        | one h =>
          obtain ⟨what, h⟩ := either.1 h
          exact ⟨.classic, what, w, rfl, h⟩
        | other h => cases h with
          | sequence hmodifier h =>
            cases hmodifier
            obtain ⟨what, h⟩ := either.1 h
            exact ⟨.external, what, _, rfl, h⟩
      | other h => cases h with
        | sequence hmodifier h =>
          cases hmodifier
          obtain ⟨what, h⟩ := either.1 h
          exact ⟨.static, what, _, rfl, h⟩
  · rintro ⟨storage, what, declared, rfl, h⟩
    have h := either.2 ⟨what, h⟩
    cases storage with
    | classic => exact .production (.one (.one h))
    | external => exact .production (.one (.other (.sequence .terminal h)))
    | static => exact .production (.other (.sequence .terminal h))

namespace Control

theorem run_of_derives {w : List Terminal} (h : Derives (.production .declaration) w) :
    top.run w = some top := by
  have program : Derives (.production .program) (w ++ []) := .production (.more h .none)
  rw [List.append_nil] at program
  exact derives_program_iff_run.1 program

/-- A declaration begins with a keyword. -/
theorem step_top_eq_none {t : Terminal} (h : t.isKeyword = false) : top.step t = none := by
  refine step_eq_none_iff.2 fun move hmove => ?_
  rintro rfl
  simp only [moves, declarationMoves, List.cons_append, List.nil_append, List.mem_cons,
    List.not_mem_nil, or_false] at hmove
  rcases hmove with rfl | rfl | rfl | rfl <;> cases h

variable {storage storage' : Storage} {what what' : Declared} {rest rest' u v w : List Terminal}
  {later : List Terminal}

/-- Between the keyword of a declaration and its end there is no way to the top, because a keyword
would have to follow there. What is behind the word may be cut off: that is `later`. -/
theorem eq_nil_of_run (hrest : ∀ t ∈ rest, t.isKeyword = false)
    (h : storage.modifier ++ .keyword what.keyword :: rest = u ++ v ++ later) (hu : u ≠ [])
    (hrun : top.run u = some top) (hv : top.run v ≠ none) : v = [] := by
  cases v with
  | nil => rfl
  | cons t v =>
    have keyword : t.isKeyword = true := by
      cases hplain : t.isKeyword with
      | true => rfl
      | false =>
        rw [run, step_top_eq_none hplain] at hv
        exact absurd rfl hv
    have inside {w : List Terminal} (hw : rest = w ++ (t :: v) ++ later) : t :: v = [] := by
      have plain := hrest t (by simp [hw])
      rw [keyword] at plain
      cases plain
    obtain ⟨first, u, rfl⟩ := List.exists_cons_of_ne_nil hu
    cases storage with
    | classic => exact inside (List.tail_eq_of_cons_eq h)
    | external | static =>
      obtain ⟨hfirst, htail⟩ := List.cons.inj h
      cases u with
      | nil =>
        rw [← hfirst] at hrun
        cases hrun
      | cons second u => exact inside (List.tail_eq_of_cons_eq htail)

theorem modifier_append_inj
    (h : storage.modifier ++ .keyword what.keyword :: rest =
      storage'.modifier ++ .keyword what'.keyword :: rest') :
    storage = storage' ∧ what = what' ∧ rest = rest' := by
  cases storage <;> cases storage' <;> cases what <;> cases what' <;>
    simp_all [Storage.modifier, Declared.keyword]

theorem ne_nil_of_derives (h : Derives (.production .declaration) u) : u ≠ [] := by
  obtain ⟨storage, what, declared, rfl, hdeclared⟩ := derives_declaration_iff.1 h
  obtain ⟨rest, rfl, -, -⟩ := exists_rest_of_derives hdeclared
  exact List.append_ne_nil_of_right_ne_nil _ (List.cons_ne_nil _ _)

/-- A word like a declaration that leads to the top is one. -/
theorem derives_of_run (hrest : ∀ t ∈ rest, t.isKeyword = false)
    (hrun : top.run (storage.modifier ++ .keyword what.keyword :: rest) = some top) :
    Derives (.production (what.production storage)) (.keyword what.keyword :: rest) := by
  generalize hw : storage.modifier ++ .keyword what.keyword :: rest = w at hrun
  have program := derives_program_iff_run.2 hrun
  cases program with
  | production program => cases program with
    | none => exact absurd hw (List.append_ne_nil_of_right_ne_nil _ (List.cons_ne_nil _ _))
    | @more _ u v hfirst hmore =>
      have onward : top.run v = some top := derives_program_iff_run.1 (.production hmore)
      have whole : storage.modifier ++ .keyword what.keyword :: rest = u ++ v ++ [] := by
        rw [hw, List.append_nil]
      obtain rfl := eq_nil_of_run hrest whole (ne_nil_of_derives hfirst) (run_of_derives hfirst)
        (by rw [onward]; exact Option.some_ne_none _)
      rw [List.append_nil] at hw
      obtain ⟨storage', what', declared, rfl, hdeclared⟩ := derives_declaration_iff.1 hfirst
      obtain ⟨rest', rfl, -, -⟩ := exists_rest_of_derives hdeclared
      obtain ⟨rfl, rfl, rfl⟩ := modifier_append_inj hw
      exact hdeclared

/-- A declaration that has been begun and leads elsewhere has none in front of it. -/
theorem not_derives_front {c : Control} (hrest : ∀ t ∈ rest, t.isKeyword = false)
    (hw : storage.modifier ++ .keyword what.keyword :: rest = w ++ later)
    (hrun : top.run w = some c) (hc : c ≠ top) (hu : u <+: w) :
    ¬Derives (.production .declaration) u := by
  intro h
  obtain ⟨v, rfl⟩ := hu
  rw [run_append, run_of_derives h, Option.bind_some] at hrun
  obtain rfl := eq_nil_of_run hrest hw (ne_nil_of_derives h) (run_of_derives h)
    (by rw [hrun]; exact Option.some_ne_none c)
  exact hc (Option.some.inj hrun).symm

/-- No declaration begins with another one. -/
theorem eq_nil_of_derives (hu : Derives (.production .declaration) u)
    (huv : Derives (.production .declaration) (u ++ v)) : v = [] := by
  obtain ⟨storage, what, declared, hw, hdeclared⟩ := derives_declaration_iff.1 huv
  obtain ⟨rest, rfl, -, hrest⟩ := exists_rest_of_derives hdeclared
  have hrun := run_of_derives huv
  rw [run_append, run_of_derives hu, Option.bind_some] at hrun
  have whole : storage.modifier ++ .keyword what.keyword :: rest = u ++ v ++ [] := by
    rw [← hw, List.append_nil]
  exact eq_nil_of_run hrest whole (ne_nil_of_derives hu) (run_of_derives hu)
    (by rw [hrun]; exact Option.some_ne_none _)

end Control

/-- The tokens are one declaration. -/
def TokenStream.IsDeclaration (tokens : TokenStream) : Prop :=
  Derives (.production .declaration) (tokens.map Token.terminal)

/-- The tokens are declarations, one behind the other, and then some more, in front of which there
is no declaration. -/
structure TokenStream.Splits (tokens : TokenStream) (declarations : List TokenStream)
    (unfinished : TokenStream) : Prop where
  tokens_eq : tokens = declarations.flatten ++ unfinished
  declared : ∀ declaration ∈ declarations, declaration.IsDeclaration
  unfinished : ∀ front : TokenStream, front <+: unfinished → ¬front.IsDeclaration

namespace TokenStream

variable {tokens a b a' b' : TokenStream} {declarations declarations' : List TokenStream}

theorem IsDeclaration.unique (ha : a.IsDeclaration) (ha' : a'.IsDeclaration)
    (h : a ++ b = a' ++ b') : a = a' := by
  rcases List.append_eq_append_iff.1 h with ⟨more, rfl, -⟩ | ⟨more, rfl, -⟩
  · unfold IsDeclaration at ha'
    rw [List.map_append] at ha'
    rw [List.map_eq_nil_iff.1 (Control.eq_nil_of_derives ha ha'), List.append_nil]
  · unfold IsDeclaration at ha
    rw [List.map_append] at ha
    rw [List.map_eq_nil_iff.1 (Control.eq_nil_of_derives ha' ha), List.append_nil]

/-- There is one way only to divide tokens so. -/
theorem Splits.unique (h : Splits tokens declarations b) (h' : Splits tokens declarations' b') :
    declarations = declarations' ∧ b = b' := by
  induction declarations generalizing tokens declarations' with
  | nil =>
    cases declarations' with
    | nil => exact ⟨rfl, h.tokens_eq.symm.trans h'.tokens_eq⟩
    | cons d' declarations' =>
      have front : d' <+: b := ⟨declarations'.flatten ++ b', by
        rw [← List.append_assoc]; exact h'.tokens_eq.symm.trans h.tokens_eq⟩
      exact absurd (h'.declared d' List.mem_cons_self) (h.unfinished d' front)
  | cons d declarations ih =>
    obtain ⟨hd, hdeclared⟩ := List.forall_mem_cons.1 h.declared
    have heq : tokens = d ++ (declarations.flatten ++ b) :=
      h.tokens_eq.trans (List.append_assoc _ _ _)
    cases declarations' with
    | nil =>
      have front : d <+: b' := ⟨declarations.flatten ++ b, heq.symm.trans h'.tokens_eq⟩
      exact absurd hd (h'.unfinished d front)
    | cons d' declarations' =>
      obtain ⟨hd', hdeclared'⟩ := List.forall_mem_cons.1 h'.declared
      have heq' : tokens = d' ++ (declarations'.flatten ++ b') :=
        h'.tokens_eq.trans (List.append_assoc _ _ _)
      obtain rfl := hd.unique hd' (heq.symm.trans heq')
      obtain ⟨rfl, rfl⟩ := ih ⟨rfl, hdeclared, h.unfinished⟩
        ⟨List.append_cancel_left (heq.symm.trans heq'), hdeclared', h'.unfinished⟩
      exact ⟨rfl, rfl⟩

end TokenStream

end FrontEnd
