import FrontEnd.Proofs.Scan.Concatenation

/-!
# FrontEnd.Proofs.Scan.Truncation

A source that is cut off behind a lexeme, or somewhere further on.

* `Scan.leaving s kept` — the scan with only so much behind it.
* `Dispatch.Truncates spec` — a lexeme of the rule stays what it is where less source comes behind.
  All rules are so, since none needs more than the end of the source to know that a lexeme ends.
* `scan_truncated` — so every scan does.
-/

namespace FrontEnd

def Scan.leaving (s : Scan) (kept : List Char) : Scan := { s with rest := kept }

namespace Dispatch

def Truncates (spec : Spec) : Prop :=
  ∀ {source kept : List Char} {s : Scan}, spec source (.ok s) → kept <+: s.rest →
    spec (s.text ++ kept) (.ok (s.leaving kept))

section Rules

variable {rest kept : List Char}

theorem forall_head?_of_front {p : Char → Prop} (h : ∀ c ∈ rest.head?, p c)
    (hkept : kept <+: rest) : ∀ c ∈ kept.head?, p c := by
  cases kept with
  | nil => nofun
  | cons d kept =>
    obtain ⟨cut, rfl⟩ := hkept
    exact h

theorem Run.truncate {p : Char → Prop} {source text : List Char} (run : Run p source text rest)
    (hkept : kept <+: rest) : Run p (text ++ kept) text kept :=
  ⟨rfl, run.inside, forall_head?_of_front run.stops hkept⟩

theorem lineComment_truncates : Truncates LineComment := by
  intro source kept s h hkept
  cases h with
  | mk run => exact .mk (run.truncate hkept)

theorem blockComment_truncates : Truncates BlockComment := by
  intro source kept s h hkept
  cases h with
  | @closed body rest hbody =>
    have closed : BlockComment ('/' :: '*' :: (body ++ '*' :: '/' :: kept)) _ := .closed hbody
    simpa [Scan.leaving] using closed

theorem layoutRun_truncates : Truncates LayoutRun := by
  intro source kept s h hkept
  cases h with
  | mk hne run => exact .mk hne (run.truncate hkept)

theorem maximalWord_truncates : Truncates MaximalWord := by
  intro source kept s h hkept
  cases h with
  | mk hc run => exact .mk hc (run.truncate hkept)

theorem mark_truncates : Truncates Mark := by
  intro source kept s h hkept
  cases h
  exact .mk

theorem stringLiteral_truncates : Truncates StringLiteral := by
  intro source kept s h hkept
  cases h with
  | @closed raw value rest content =>
    have closed : StringLiteral ('"' :: (raw ++ '"' :: kept)) _ := .closed content
    simpa [Scan.leaving] using closed

theorem numberLiteral_truncates : Truncates NumberLiteral := by
  have no_point {rest kept : List Char} (h : '.' ∉ rest.head?) (hkept : kept <+: rest) :
      '.' ∉ kept.head? := fun hpoint =>
    forall_head?_of_front (fun _ hc => ne_of_mem_of_not_mem hc h) hkept _ hpoint rfl
  intro source kept s h hkept
  cases h with
  | integer hne run hpoint => exact .integer hne (run.truncate hkept) (no_point hpoint hkept)
  | @decimal _ whole after fraction rest hne run run' hpoint =>
    have whole_run : Run Digit (whole ++ '.' :: (fraction ++ kept)) whole _ :=
      run.truncate (by simpa [run'.source_eq] using hkept)
    have decimal :=
      NumberLiteral.decimal hne whole_run (run'.truncate hkept) (no_point hpoint hkept)
    simpa [Scan.leaving] using decimal

theorem longestOperator_truncates : Truncates LongestOperator := by
  intro source kept s h hkept
  cases h with
  | three htwo hop => exact .three htwo hop
  | two hop hthree => exact .two hop (forall_head?_of_front hthree hkept)
  | one hop htwo => exact .one hop (forall_head?_of_front htwo hkept)

theorem truncates_of_mem : ∀ spec ∈ specs, Truncates spec := by
  simp only [specs, List.forall_mem_cons]
  exact ⟨lineComment_truncates, blockComment_truncates, layoutRun_truncates, maximalWord_truncates,
    mark_truncates, stringLiteral_truncates, numberLiteral_truncates, longestOperator_truncates,
    List.forall_mem_nil _⟩

end Rules

end Dispatch

open Dispatch

/-- The lexeme is taken just so where only `kept` comes behind it. -/
theorem scan_truncated {c : Char} {rest kept : List Char} {s : Scan} (h : scan c rest = .ok s)
    (hkept : kept <+: s.rest) :
    ∃ text, s.text = c :: text ∧ scan c (text ++ kept) = .ok (s.leaving kept) := by
  obtain ⟨hne, htiles⟩ := scan_tiles h
  obtain ⟨d, text, htext⟩ := List.exists_cons_of_ne_nil hne
  rw [htext] at htiles
  obtain ⟨rfl, rfl⟩ := List.cons.inj htiles
  have front : d :: (text ++ kept) <+: d :: (text ++ s.rest) := by
    obtain ⟨cut, hcut⟩ := hkept
    exact ⟨cut, by simp [hcut]⟩
  have source_eq : s.text ++ kept = d :: (text ++ kept) := by rw [htext]; rfl
  refine ⟨text, htext, scan_eq_iff_firstMatch.2 ((scan_eq_iff_firstMatch.1 h).carry ?_ ?_)⟩
  · intro spec hmem hspec
    exact source_eq ▸ truncates_of_mem spec hmem hspec hkept
  · exact fun _ _ hopener => hopener.trans front

end FrontEnd
