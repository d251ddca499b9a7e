import FrontEnd.Proofs.Infix.Tree

/-!
# FrontEnd.Proofs.Infix.Postorder

The resolver computes the postorder of the tree that its input writes.

* `Infix.Sends tokens stack out after` — the tokens send `out` to the output and make of the
  stack `after`, whatever comes behind them.
* `Infix.exists_sends` — the tokens of a tree send its postorder, but for operators of at most
  its level, which wait on the stack.
* `Infix.resolveText_eq_postorder` — so a text that writes a tree resolves to its postorder.
-/

namespace FrontEnd
namespace Infix

/-- Operators that wait on the stack, the last first. -/
def waiting (pending : List (String × InfixOperator)) : Stack :=
  pending.map fun (lexeme, operator) => .operator lexeme operator

def AtMost (strength : Nat) (pending : List (String × InfixOperator)) : Prop :=
  ∀ p ∈ pending, p.2.strength ≤ strength

theorem AtMost.append_singleton {strength lower : Nat} {pending : List (String × InfixOperator)}
    {lexeme : String} {operator : InfixOperator} (h : AtMost lower pending)
    (hlower : lower ≤ strength) (hoperator : operator.strength ≤ strength) :
    AtMost strength (pending ++ [(lexeme, operator)]) := by
  intro p hp
  rcases List.mem_append.1 hp with hp | hp
  · exact Nat.le_trans (h p hp) hlower
  · rw [List.mem_singleton.1 hp]
    exact hoperator

/-- An operator of this strength takes nothing off the stack. -/
def Above (strength : Nat) : Stack → Prop
  | .operator _ top :: _ => strength < top.strength
  | _ => True

theorem Above.mono {strength lower : Nat} {stack : Stack} (h : Above strength stack)
    (hle : lower ≤ strength) : Above lower stack := by
  match stack with
  | [] => trivial
  | .opened _ :: _ => trivial
  | .operator _ top :: _ =>
    have : strength < top.strength := h
    exact Nat.lt_of_le_of_lt hle this

section Stacks

variable {pending : List (String × InfixOperator)} {stack : Stack}

theorem waiting_append_singleton {lexeme : String} {operator : InfixOperator} :
    waiting (pending ++ [(lexeme, operator)]) ++ stack =
      waiting pending ++ .operator lexeme operator :: stack := by
  simp [waiting]

theorem popTighter_above {strength : Nat} (h : Above strength stack) :
    popTighter strength stack = ([], stack) := by
  match stack with
  | [] => rfl
  | .opened _ :: _ => rfl
  | .operator _ top :: _ =>
    have : strength < top.strength := h
    simp [popTighter, this]

theorem popTighter_waiting {strength : Nat} (hp : AtMost strength pending)
    (h : Above strength stack) :
    popTighter strength (waiting pending ++ stack) = (pending.map Prod.fst, stack) := by
  induction pending with
  | nil => exact popTighter_above h
  | cons p pending ih =>
    obtain ⟨htop, hrest⟩ := List.forall_mem_cons.1 hp
    have : ¬strength < p.2.strength := Nat.not_lt.2 htop
    have popped := ih hrest
    simp only [waiting] at popped
    simp [waiting, popTighter, this, popped]

theorem popGroup?_waiting {index : Nat} :
    popGroup? (waiting pending ++ .opened index :: stack) =
      some (pending.map Prod.fst, stack) := by
  induction pending with
  | nil => rfl
  | cons p pending ih =>
    simp only [waiting] at ih
    simp [waiting, popGroup?, ih]

theorem flush_waiting : flush (waiting pending) = .ok (pending.map Prod.fst) := by
  induction pending with
  | nil => rfl
  | cons p pending ih =>
    simp only [waiting] at ih
    simp [waiting, flush, ih, Except.map]

end Stacks

/-- Whatever comes behind the tokens, which begin at `index`, they send `out` to the output and
leave the stack `after`. -/
def Sends (index : Nat) (tokens : List String) (stack : Stack) (out : List String)
    (after : Stack) : Prop :=
  ∀ rest, resolveFrom index stack (tokens ++ rest) =
    (resolveFrom (index + tokens.length) after rest).map (out ++ ·)

section Sends

variable {index : Nat} {stack : Stack} {pending : List (String × InfixOperator)}

theorem Sends.append {tokens tokens' out out' : List String} {stack' stack'' : Stack}
    (h : Sends index tokens stack out stack')
    (h' : Sends (index + tokens.length) tokens' stack' out' stack'') :
    Sends index (tokens ++ tokens') stack (out ++ out') stack'' := by
  intro rest
  rw [List.append_assoc, h, h', List.length_append, Nat.add_assoc]
  cases resolveFrom (index + (tokens.length + tokens'.length)) stack'' rest with
  | error error => rfl
  | ok later => simp [Except.map]

theorem Sends.nil : Sends index [] stack [] stack := by
  intro rest
  rw [List.nil_append, List.length_nil, Nat.add_zero]
  cases resolveFrom index stack rest <;> rfl

theorem sends_of_step {token : String} {out : List String} {after : Stack}
    (h : step index token stack = .ok (out, after)) : Sends index [token] stack out after := by
  intro rest
  rw [List.singleton_append, resolveFrom, h]
  rfl

theorem sends_operand (x : Operand) : Sends index [x.text] stack [x.text] stack := by
  have hx : InfixOperator.ofLexeme? x.text = none :=
    Option.eq_none_iff_forall_ne_some.2 fun operator h =>
      x.not_operator operator (InfixOperator.ofLexeme?_eq_some_iff.1 h)
  refine sends_of_step ?_
  simp only [step, hx, if_neg x.not_open, if_neg x.not_close]

theorem sends_operator {lexeme : String} {operator : InfixOperator}
    (h : lexeme ∈ operator.lexemes) (hp : AtMost operator.strength pending)
    (hs : Above operator.strength stack) :
    Sends index [lexeme] (waiting pending ++ stack) (pending.map Prod.fst)
      (.operator lexeme operator :: stack) := by
  refine sends_of_step ?_
  simp only [step, InfixOperator.ofLexeme?_eq_some_iff.2 h, popTighter_waiting hp hs]

theorem sends_open : Sends index ["("] stack [] (.opened index :: stack) := sends_of_step rfl

theorem sends_close {opened : Nat} :
    Sends index [")"] (waiting pending ++ .opened opened :: stack) (pending.map Prod.fst)
      stack := by
  have hlookup : InfixOperator.ofLexeme? ")" = none := by decide
  refine sends_of_step ?_
  simp [step, hlookup, popGroup?_waiting]

end Sends

/-- The induction is on the way the tree is written. A left operand leaves operators that its
operator takes off the stack; the right one finds that operator above everything it brings. -/
theorem exists_sends {tree : Tree} {level : Nat} {tokens : List String}
    (h : Renders tree level tokens) :
    ∀ (index : Nat) (stack : Stack), Above level stack →
      ∃ (out : List String) (pending : List (String × InfixOperator)),
        Sends index tokens stack out (waiting pending ++ stack) ∧
        out ++ pending.map Prod.fst = tree.postorder ∧
        AtMost level pending := by
  induction h with
  | @operand x =>
    intro index stack _
    exact ⟨[x.text], [], sends_operand x, rfl, by simp [AtMost]⟩
  | @group tree level tokens _ ih =>
    intro index stack _
    obtain ⟨out, pending, hsends, horder, _⟩ := ih (index + 1) (.opened index :: stack) trivial
    refine ⟨tree.postorder, [], ?_, by simp, by simp [AtMost]⟩
    have grouped := sends_open.append (hsends.append sends_close)
    rw [horder] at grouped
    exact grouped
  | @unary prefixOp tree tokens _ ih =>
    intro index stack habove
    have htwo : prefixOp.operator.strength = 2 := by cases prefixOp <;> rfl
    rw [← htwo] at habove
    have hprefix : Sends index [prefixOp.lexeme] (waiting [] ++ stack) []
        (.operator prefixOp.lexeme prefixOp.operator :: stack) :=
      sends_operator prefixOp.lexeme_mem (by simp [AtMost]) habove
    have hlow : Above 0 (.operator prefixOp.lexeme prefixOp.operator :: stack) := by
      simp [Above, htwo]
    obtain ⟨out, pending, hsends, horder, hpending⟩ := ih (index + 1) _ hlow
    refine ⟨out, pending ++ [(prefixOp.lexeme, prefixOp.operator)], ?_, ?_, ?_⟩
    · rw [waiting_append_singleton]
      exact hprefix.append hsends
    · simp [Tree.postorder, ← horder]
    · exact hpending.append_singleton (by omega) (by omega)
  | @binary operator left right leftLevel rightLevel leftTokens rightTokens _ hleft _ hright
      ihl ihr =>
    intro index stack habove
    obtain ⟨outl, pendingl, hsendsl, horderl, hpendingl⟩ :=
      ihl index stack (habove.mono hleft)
    have hoperator : Sends (index + leftTokens.length) [operator.lexeme]
        (waiting pendingl ++ stack) (pendingl.map Prod.fst)
        (.operator operator.lexeme operator.operator :: stack) :=
      sends_operator operator.spelled (fun p hp => Nat.le_trans (hpendingl p hp) hleft) habove
    have hlow : Above rightLevel (.operator operator.lexeme operator.operator :: stack) := hright
    obtain ⟨outr, pendingr, hsendsr, horderr, hpendingr⟩ :=
      ihr (index + leftTokens.length + 1) _ hlow
    refine ⟨outl ++ (pendingl.map Prod.fst ++ outr),
      pendingr ++ [(operator.lexeme, operator.operator)], ?_, ?_, ?_⟩
    · rw [waiting_append_singleton]
      exact hsendsl.append (hoperator.append hsendsr)
    · simp [Tree.postorder, ← horderl, ← horderr]
    · exact hpendingr.append_singleton (by omega) (Nat.le_refl _)

/-- At the end the operators that wait are sent too. -/
theorem resolve_eq_postorder {tree : Tree} {level : Nat} {tokens : List String}
    (h : Renders tree level tokens) : resolve tokens = .ok tree.postorder := by
  obtain ⟨out, pending, hsends, horder, _⟩ := exists_sends h 0 [] trivial
  have := hsends []
  rw [List.append_nil, List.append_nil, resolveFrom, flush_waiting] at this
  rw [resolve, this, ← horder]
  rfl

/-- A text that writes a tree, with any white space between the tokens and around them, resolves
to the postorder of the tree. -/
theorem resolveText_eq_postorder {tree : Tree} {level : Nat} {tokens : List String}
    {lead text trail : List Char} (h : Renders tree level tokens)
    (hspread : Text.Spread tokens text) (hlead : Text.Blank lead) (htrail : Text.Blank trail) :
    resolveText (String.ofList (lead ++ (text ++ trail))) = .ok (spaced tree.postorder) := by
  rw [resolveText, String.toList_ofList, Text.words_spread hspread h.unbroken hlead htrail,
    resolve_eq_postorder h]
  rfl

/-- Subtraction groups to the left, so a difference on the right stands in parentheses. -/
theorem resolveText_difference_of_difference :
    resolveText "\ta -  ( b - ! c ) " = .ok "a b c ! - - " := by
  obtain ⟨a, ha⟩ := exists_operand (by decide : "a" ≠ "") rfl
  obtain ⟨b, hb⟩ := exists_operand (by decide : "b" ≠ "") rfl
  obtain ⟨c, hc⟩ := exists_operand (by decide : "c" ≠ "") rfl
  have right : Renders (.binary ⟨"-", .subtract, by decide, by decide⟩ (.operand b)
      (.unary .bang (.operand c))) 4 ([b.text] ++ "-" :: ["!", c.text]) :=
    .binary .operand (by decide) (.unary .operand) (by decide)
  have whole : Renders (.binary ⟨"-", .subtract, by decide, by decide⟩ (.operand a) _) 4
      ([a.text] ++ "-" :: ("(" :: (([b.text] ++ "-" :: ["!", c.text]) ++ [")"]))) :=
    .binary .operand (by decide) (.group right) (by decide)
  rw [ha, hb, hc] at whole
  have spread : Text.Spread ["a", "-", "(", "b", "-", "!", "c", ")"]
      ("a".toList ++ ([' '] ++ ("-".toList ++ ([' ', ' '] ++ ("(".toList ++ ([' '] ++
        ("b".toList ++ ([' '] ++ ("-".toList ++ ([' '] ++ ("!".toList ++ ([' '] ++
          ("c".toList ++ ([' '] ++ ")".toList)))))))))))))) := by
    repeat refine .cons (by decide) (by decide) ?_
    exact .one
  have resolved := resolveText_eq_postorder whole spread
    (by decide : Text.Blank ['\t']) (by decide : Text.Blank [' '])
  simp only [Tree.postorder, ha, hb, hc] at resolved
  exact resolved

end Infix
end FrontEnd
