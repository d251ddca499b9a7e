import FrontEnd.CommandLine.Parse
import Mathlib.Algebra.GroupWithZero.Nat

/-!
# FrontEnd.Proofs.CommandLine.Options

The options for more and for less log, in front of a command's name and behind it.

* `CommandLine.isLogCluster` — an argument that is made of these options.
* `CommandLine.Verbosity.after` — what is counted once the options in some arguments are given, too.
* `CommandLine.CommandName.options` — the arguments behind a command's name that may be options.
* `CommandLine.parseFrom_eq_ok`, `CommandLine.parseCommand_eq_ok` — what is counted in front of the
  name, and what behind it. Each side is checked for a conflict on its own.
* `CommandLine.parse_conflicting_iff` — so more and less log are asked for at once exactly if the
  one option stands in front of the name and the other one behind it.
-/

namespace FrontEnd.CommandLine

/-- An argument that is made of the options for the log. -/
def isLogCluster (argument : String) : Bool :=
  match Shape.of argument with
  | .short flags => flags.all (['v', 'q'].contains ·)
  | .long .. | .word => false

/-- How often a short option stands in an argument. -/
def occurrences (option : Char) (argument : String) : Nat :=
  match Shape.of argument with
  | .short flags => flags.count option
  | .long .. | .word => 0

namespace Verbosity

/-- The count, with the options that the arguments hold. -/
def after (v : Verbosity) (arguments : List String) : Verbosity :=
  ⟨v.verbose + (arguments.map (occurrences 'v')).sum,
    v.quiet + (arguments.map (occurrences 'q')).sum⟩

/-- The options that the arguments hold. -/
def givenIn (arguments : List String) : Verbosity := neutral.after arguments

variable {v w : Verbosity} {argument : String} {rest : List String}

@[simp] theorem after_nil : v.after [] = v := rfl

theorem after_cons : v.after (argument :: rest) =
    Verbosity.after ⟨v.verbose + occurrences 'v' argument, v.quiet + occurrences 'q' argument⟩
      rest := by
  simp [after, Nat.add_assoc]

theorem after_cons_of_short {flags : List Char} (h : Shape.of argument = .short flags) :
    v.after (argument :: rest) =
      Verbosity.after ⟨v.verbose + flags.count 'v', v.quiet + flags.count 'q'⟩ rest := by
  simp [after_cons, occurrences, h]

theorem after_cons_of_no_option (h : ∀ flags, Shape.of argument ≠ .short flags) :
    v.after (argument :: rest) = v.after rest := by
  have none (option : Char) : occurrences option argument = 0 := by
    unfold occurrences
    split
    · rename_i flags hshape
      exact absurd hshape (h flags)
    all_goals rfl
  simp [after_cons, none]

theorem more_eq_ok (h : v.more = .ok w) : w = ⟨v.verbose + 1, v.quiet⟩ := by
  unfold more at h
  split at h
  · exact (Except.ok.inj h).symm
  · cases h

theorem less_eq_ok (h : v.less = .ok w) : w = ⟨v.verbose, v.quiet + 1⟩ := by
  unfold less at h
  split at h
  · exact (Except.ok.inj h).symm
  · cases h

theorem isConflicting_iff : v.isConflicting = true ↔ 0 < v.verbose ∧ 0 < v.quiet := by
  simp [isConflicting]

/-- Where neither count is in conflict, taking the later options in the place of the same ones given
before makes a conflict only of one option on either side. -/
theorem isConflicting_override_iff (hv : v.isConflicting = false) (hw : w.isConflicting = false) :
    (v.override w).isConflicting = true ↔
      0 < v.verbose ∧ 0 < w.quiet ∨ 0 < v.quiet ∧ 0 < w.verbose := by
  rw [← Bool.not_eq_true, isConflicting_iff] at hv hw
  rw [isConflicting_iff, override]
  dsimp only
  split <;> split <;> omega

end Verbosity

/-- Options that can be counted are those for the log, and each of them counts. -/
theorem count_eq_ok {hasVersion : Bool} {v w : Verbosity} {flags : List Char}
    (h : count hasVersion v flags = .ok w) :
    w = ⟨v.verbose + flags.count 'v', v.quiet + flags.count 'q'⟩ ∧
      ∀ c ∈ flags, c = 'v' ∨ c = 'q' := by
  induction flags generalizing v with
  | nil =>
    cases h
    exact ⟨rfl, List.forall_mem_nil _⟩
  | cons c flags ih =>
    unfold count at h
    split at h
    · rename_i hc
      split at h
      · rename_i u hmore
        obtain ⟨rfl, hflags⟩ := ih h
        rw [Verbosity.more_eq_ok hmore]
        exact ⟨by simp [hc, Nat.add_assoc, Nat.add_comm 1],
          List.forall_mem_cons.2 ⟨.inl hc, hflags⟩⟩
      · cases h
    · split at h
      · rename_i hc
        split at h
        · rename_i u hless
          obtain ⟨rfl, hflags⟩ := ih h
          rw [Verbosity.less_eq_ok hless]
          exact ⟨by simp [hc, Nat.add_assoc, Nat.add_comm 1],
            List.forall_mem_cons.2 ⟨.inr hc, hflags⟩⟩
        · cases h
      · split at h
        · cases h
        · split at h <;> cases h

theorem isLogCluster_of_count {hasVersion : Bool} {v w : Verbosity} {argument : String}
    {flags : List Char} (hshape : Shape.of argument = .short flags)
    (h : count hasVersion v flags = .ok w) : isLogCluster argument = true := by
  rw [isLogCluster, hshape, List.all_eq_true]
  intro c hc
  rcases (count_eq_ok h).2 c hc with rfl | rfl <;> rfl

namespace Source

variable {source source' : Source} {argument : String}

theorem word_verbosity (h : source.word argument = .ok source') :
    source'.verbosity = source.verbosity := by
  unfold word at h
  split at h
  · cases h
    rfl
  · cases h

theorem short_verbosity {flags : List Char} (h : source.short flags = .ok source') :
    source'.verbosity = ⟨source.verbosity.verbose + flags.count 'v',
      source.verbosity.quiet + flags.count 'q'⟩ := by
  unfold short at h
  split at h
  · cases h
  · split at h
    · rename_i w hcount
      cases h
      exact (count_eq_ok hcount).1
    · cases h

theorem long_verbosity {name : String} {value? : Option String}
    (h : source.long name value? = .ok source') : source'.verbosity = source.verbosity := by
  unfold long at h
  split at h
  · cases h
  · split at h
    · split at h
      · cases h
      · split at h
        · cases h
        · cases h
          rfl
    · split at h <;> cases h

/-- Behind `--` nothing is an option; in front of it all options count. -/
theorem read_verbosity {escaped : Bool} {arguments : List String}
    (h : source.read escaped arguments = .ok source') :
    source'.verbosity =
      if escaped then source.verbosity
      else source.verbosity.after (arguments.takeWhile (· ≠ "--")) := by
  induction arguments generalizing source escaped with
  | nil =>
    unfold read at h
    split at h
    · cases h
    · cases h
      simp
  | cons argument rest ih =>
    unfold read at h
    cases escaped with
    | true =>
      rw [if_neg (by simp)] at h
      dsimp only [if_true] at h
      split at h
      · cases h
      · rename_i next hnext
        exact (ih h).trans (word_verbosity hnext)
    | false =>
      by_cases hdash : argument = "--"
      · rw [if_pos (by simp [hdash])] at h
        simpa [hdash] using ih h
      · rw [if_neg (by simp [hdash])] at h
        have counts : (argument :: rest).takeWhile (· ≠ "--") =
            argument :: rest.takeWhile (· ≠ "--") := List.takeWhile_cons_of_pos (by simpa)
        dsimp only at h
        split at h
        · cases h
        · rename_i next hnext
          rw [ih h, if_neg Bool.false_ne_true, if_neg Bool.false_ne_true, counts]
          split at hnext
          all_goals
            rename_i hshape
            rw [if_neg Bool.false_ne_true] at hshape
          · rw [word_verbosity hnext, Verbosity.after_cons_of_no_option (by simp [hshape])]
          · rw [short_verbosity hnext, Verbosity.after_cons_of_short hshape]
          · rw [long_verbosity hnext, Verbosity.after_cons_of_no_option (by simp [hshape])]

end Source

theorem not_isLogCluster {argument : String} (h : ∀ flags, Shape.of argument ≠ .short flags) :
    isLogCluster argument = false := by
  unfold isLogCluster
  split
  · rename_i flags hshape
    exact absurd hshape (h flags)
  all_goals rfl

/-- In front of the operands stand clusters of options for the log. -/
theorem operands_eq_ok {v w : Verbosity} {arguments expression : List String}
    (h : operands v arguments = .ok (w, expression)) :
    w = v.after (arguments.takeWhile isLogCluster) := by
  induction arguments generalizing v with
  | nil =>
    cases h
    rfl
  | cons argument rest ih =>
    -- an argument that is no cluster of options is the first operand
    have ends {tail : List String} (hnot : isLogCluster argument = false)
        (h : (.ok (v, tail) : Except UsageError _) = .ok (w, expression)) :
        w = v.after ((argument :: rest).takeWhile isLogCluster) := by
      cases h
      rw [List.takeWhile_cons_of_neg (by simp [hnot])]
      rfl
    unfold operands at h
    split at h
    · rename_i hdash
      exact ends (by rw [hdash]; rfl) h
    · split at h
      · rename_i hshape
        exact ends (not_isLogCluster (by simp [hshape])) h
      · rename_i flags hshape
        split at h
        · split at h
          · rename_i u hcount
            rw [List.takeWhile_cons_of_pos (isLogCluster_of_count hshape hcount), ih h,
              (count_eq_ok hcount).1, Verbosity.after_cons_of_short hshape]
          · cases h
        · rename_i hother
          refine ends (Bool.eq_false_iff.2 fun hcluster => hother ?_) h
          rw [isLogCluster, hshape] at hcluster
          rw [List.all_eq_true] at hcluster ⊢
          intro c hc
          have option : c ∈ ['v', 'q'] := List.contains_iff_mem.1 (hcluster c hc)
          exact List.contains_iff_mem.2 (List.mem_append_left ['h'] option)
      · rename_i name value? hshape
        split at h
        · cases h
        · exact ends (not_isLogCluster (by simp [hshape])) h

namespace CommandName

/-- The arguments behind a command's name that may be options: those in front of `--`, or, for an
expression, those in front of its first operand. -/
def options : CommandName → List String → List String
  | .resolve, arguments => arguments.takeWhile isLogCluster
  | .lex, arguments | .parse, arguments | .help, arguments => arguments.takeWhile (· ≠ "--")

theorem text_of_of? {argument : String} {name : CommandName} (h : of? argument = some name) :
    argument = name.text := by
  have := List.find?_some h
  exact (eq_of_beq this).symm

end CommandName

theorem Source.complete_eq_ok {source : Source} {file : String} {trace : Bool}
    (h : source.complete = .ok (file, trace)) : source.verbosity.isConflicting = false := by
  unfold complete at h
  split at h
  · cases h
  · rename_i hnot
    exact Bool.eq_false_iff.2 hnot

/-- A command counts the options among its arguments, and refuses those of both kinds. -/
theorem parseCommand_eq_ok {name : CommandName} {behind : List String} {own : Verbosity}
    {command : Command} (h : parseCommand name behind = .ok (own, command)) :
    own = .givenIn (name.options behind) ∧ own.isConflicting = false := by
  have onFile {use : String → Bool → Command}
      (h : ((Source.start.read false behind).bind fun source =>
        source.complete.map fun answer => (source.verbosity, use answer.1 answer.2)) =
          .ok (own, command)) :
      own = .givenIn (behind.takeWhile (· ≠ "--")) ∧ own.isConflicting = false := by
    cases hread : Source.start.read false behind with
    | error e =>
      rw [hread] at h
      cases h
    | ok source =>
      rw [hread] at h
      cases hcomplete : source.complete with
      | error e =>
        simp [Except.bind, Except.map, hcomplete] at h
      | ok answer =>
        simp only [Except.bind, Except.map, hcomplete, Except.ok.injEq, Prod.mk.injEq] at h
        obtain ⟨rfl, -⟩ := h
        exact ⟨Source.read_verbosity hread, Source.complete_eq_ok hcomplete⟩
  cases name with
  | lex => exact onFile h
  | parse => exact onFile h
  | help => cases h
  | resolve =>
    cases hoperands : operands .neutral behind with
    | error e =>
      simp [parseCommand, hoperands, Except.bind] at h
    | ok answer =>
      obtain ⟨w, expression⟩ := answer
      simp only [parseCommand, hoperands, Except.bind] at h
      split at h
      · cases h
      · rename_i hnot
        split at h
        · cases h
        · cases h
          exact ⟨operands_eq_ok hoperands, Bool.eq_false_iff.2 hnot⟩

/-- In front of the command's name stand options for the log and nothing else. -/
theorem parseFrom_eq_ok {v : Verbosity} {arguments : List String} {parsed : Arguments}
    (h : parseFrom v arguments = .ok parsed) :
    ∃ before name behind own, arguments = before ++ CommandName.text name :: behind ∧
      (∀ argument ∈ before, isLogCluster argument = true) ∧
      parseCommand name behind = .ok (own, parsed.command) ∧
      (v.after before).isConflicting = false ∧
      parsed.verbosity = (v.after before).override own := by
  induction arguments generalizing v with
  | nil => cases h
  | cons argument rest ih =>
    unfold parseFrom at h
    split at h
    · split at h <;> cases h
    · split at h
      · rename_i name hname
        split at h
        · cases h
        · rename_i own command hcommand
          split at h
          · cases h
          · rename_i hnot
            cases h
            exact ⟨[], name, rest, own, congrArg (· :: rest) (CommandName.text_of_of? hname),
              List.forall_mem_nil _, hcommand, Bool.eq_false_iff.2 hnot, rfl⟩
      · split at h
        · cases h
        · cases h
        · rename_i flags hshape
          split at h
          · rename_i u hcount
            obtain ⟨before, name, behind, own, rfl, hbefore, hcommand, hnot, hverbosity⟩ := ih h
            have counted : v.after (argument :: before) = u.after before := by
              rw [(count_eq_ok hcount).1, Verbosity.after_cons_of_short hshape]
            rw [← counted] at hnot hverbosity
            exact ⟨argument :: before, name, behind, own, rfl,
              List.forall_mem_cons.2 ⟨isLogCluster_of_count hshape hcount, hbefore⟩, hcommand, hnot,
              hverbosity⟩
          · cases h

/-- A command line that is accepted never has both options on the same side of the command's name.
It asks for more and for less log at once exactly if it has the one in front of the name and the
other one behind it. -/
theorem parse_conflicting_iff {arguments : List String} {parsed : Arguments}
    (h : parse arguments = .ok parsed) :
    ∃ before name behind, arguments = before ++ CommandName.text name :: behind ∧
      (∀ argument ∈ before, isLogCluster argument = true) ∧
      let front := Verbosity.givenIn before
      let back := Verbosity.givenIn (name.options behind)
      parsed.verbosity = front.override back ∧
      ¬(0 < front.verbose ∧ 0 < front.quiet) ∧ ¬(0 < back.verbose ∧ 0 < back.quiet) ∧
      (0 < parsed.verbosity.verbose ∧ 0 < parsed.verbosity.quiet ↔
        0 < front.verbose ∧ 0 < back.quiet ∨ 0 < front.quiet ∧ 0 < back.verbose) := by
  obtain ⟨before, name, behind, own, harguments, hbefore, hcommand, hfront, hverbosity⟩ :=
    parseFrom_eq_ok h
  obtain ⟨rfl, hback⟩ := parseCommand_eq_ok hcommand
  refine ⟨before, name, behind, harguments, hbefore, hverbosity, ?_, ?_, ?_⟩
  · rwa [← Verbosity.isConflicting_iff, Bool.not_eq_true]
  · rwa [← Verbosity.isConflicting_iff, Bool.not_eq_true]
  · rw [hverbosity, ← Verbosity.isConflicting_iff]
    exact Verbosity.isConflicting_override_iff hfront hback

/-- Less log is asked for in front of the name and more behind it; what stands behind the first
operand does not count. -/
theorem parse_conflicting_iff_operands :
    let arguments := ["-q", "postfix", "-v", "-v", "a", "-v"]
    let front := Verbosity.givenIn ["-q"]
    let back := Verbosity.givenIn (CommandName.resolve.options ["-v", "-v", "a", "-v"])
    parse arguments = .ok ⟨front.override back, .resolve ["a", "-v"]⟩ ∧
      front = ⟨0, 1⟩ ∧ back = ⟨2, 0⟩ ∧ front.override back = ⟨2, 1⟩ := by
  intro arguments front back
  have accepted : parse arguments = .ok ⟨⟨2, 1⟩, .resolve ["a", "-v"]⟩ := rfl
  obtain ⟨before, name, behind, harguments, hbefore, hverbosity, -⟩ :=
    parse_conflicting_iff accepted
  -- there is one way only to divide the arguments at a command's name
  rcases before with _ | ⟨first, _ | ⟨second, before⟩⟩
  · cases name <;> simp [arguments, CommandName.text] at harguments
  · obtain ⟨rfl, htext, rfl⟩ : "-q" = first ∧ "postfix" = name.text ∧
        ["-v", "-v", "a", "-v"] = behind := by simpa [arguments] using harguments
    cases name with
    | resolve => exact ⟨hverbosity ▸ accepted, rfl, rfl, rfl⟩
    | lex | parse | help => exact absurd htext (by decide)
  · have hsecond := hbefore second (by simp)
    obtain ⟨-, rfl, -⟩ : "-q" = first ∧ "postfix" = second ∧ _ := by
      simpa [arguments] using harguments
    cases hsecond

/-- More and less log at once. -/
theorem parse_verbose_and_quiet :
    ∃ parsed, parse ["-v", "lex", "-q", "x"] = .ok parsed ∧
      0 < parsed.verbosity.verbose ∧ 0 < parsed.verbosity.quiet :=
  ⟨⟨⟨1, 1⟩, .lex "x" false⟩, rfl, by decide, by decide⟩

end FrontEnd.CommandLine
