import FrontEnd.Scan.Rules

/-!
# FrontEnd.Scan.Tiling

No scan loses or adds a character of the source.

* `Scan.Tiles` — the text of a scan and the rest behind it make up the source, and the text is
  not empty.
* `scan_tiles` — every scan does so, rule by rule; so the rest is shorter (`scan_rest_lt`).
-/

namespace FrontEnd

/-- The scan takes a part of the source that is not empty, and leaves the rest. -/
def Scan.Tiles (source : List Char) (scan : Scan) : Prop :=
  scan.text ≠ [] ∧ scan.text ++ scan.rest = source

namespace Rule

/-- A rule whose scans tile the source. -/
def Tiling (rule : Rule) : Prop :=
  ∀ {source : List Char} {scan : Scan}, rule source = some (.ok scan) → scan.Tiles source

theorem lineComment_tiling : Tiling lineComment := by
  intro source scan h
  unfold lineComment at h
  split at h
  · cases h
    exact ⟨by simp, by simp⟩
  · cases h

theorem splitAtClose_append {source body after : List Char}
    (h : splitAtClose source = some (body, after)) : body ++ after = source := by
  induction source using splitAtClose.induct generalizing body with
  | case1 => simp [splitAtClose] at h
  | case2 rest =>
    simp only [splitAtClose, Option.some.injEq, Prod.mk.injEq] at h
    obtain ⟨rfl, rfl⟩ := h
    rfl
  | case3 c rest hc ih =>
    rw [splitAtClose] at h
    · obtain ⟨⟨body', after'⟩, h', heq⟩ := Option.map_eq_some_iff.1 h
      cases heq
      rw [List.cons_append, ih h']
    · exact hc

theorem blockComment_tiling : Tiling blockComment := by
  intro source scan h
  unfold blockComment at h
  split at h
  · split at h
    · rename_i body after hs
      cases h
      exact ⟨by simp, by simp [splitAtClose_append hs]⟩
    · cases h
  · cases h

theorem layout_tiling : Tiling layout := by
  intro source scan h
  unfold layout at h
  split at h
  · cases h
  · rename_i text hne
    cases h
    exact ⟨hne, by simp⟩

theorem word_tiling : Tiling word := by
  intro source scan h
  unfold word at h
  split at h
  · cases h
  · split at h
    · cases h
      exact ⟨by simp, by simp⟩
    · cases h

theorem punctuation_tiling : Tiling punctuation := by
  intro source scan h
  unfold punctuation at h
  split at h
  · cases h
  · obtain ⟨p, _, hp⟩ := Option.map_eq_some_iff.1 h
    cases hp
    exact ⟨by simp, rfl⟩

theorem StringBody.read_append {source value text rest : List Char}
    (h : read source = closed value text rest) : text ++ rest = source := by
  have prepend_closed : ∀ {c : Char} {front value text rest : List Char} {body : StringBody},
      body.prepend c front = closed value text rest →
      ∃ value' text', body = closed value' text' rest ∧ text = front ++ text' := by
    intro c front value text rest body h
    cases body with
    | closed value' text' rest' =>
      cases h
      exact ⟨value', text', rfl, rfl⟩
    | invalidEscape _ _ => cases h
    | unclosed => cases h
  induction source using read.induct generalizing value text with
  | case1 => simp [read] at h
  | case2 => simp only [read, if_pos] at h; cases h; rfl
  | case3 c hc => simp [read, hc] at h
  | case4 d after => simp only [read, if_pos] at h; cases h; rfl
  | case5 d after value' hd hq ih =>
    simp only [read, if_neg hq, if_pos, hd] at h
    obtain ⟨_, text', h', rfl⟩ := prepend_closed h
    simp [ih h']
  | case6 d after hd hq => simp [read, hd] at h
  | case7 c d after hq hc ih =>
    simp only [read, if_neg hq, if_neg hc] at h
    obtain ⟨_, text', h', rfl⟩ := prepend_closed h
    simp [ih h']

theorem string_tiling : Tiling string := by
  intro source scan h
  unfold string at h
  split at h
  · split at h
    · rename_i value text after hb
      cases h
      exact ⟨by simp, by simp [StringBody.read_append hb]⟩
    · cases h
    · cases h
  · cases h

theorem number_tiling : Tiling number := by
  intro source scan h
  have split_source := List.takeWhile_append_dropWhile (p := Char.isDigit) (l := source)
  simp only [number] at h
  split at h
  · cases h
  · split at h
    · rename_i after hd
      split at h
      · cases h
      · cases h
        refine ⟨by simp, ?_⟩
        simp only [List.append_assoc, List.cons_append, List.takeWhile_append_dropWhile]
        rw [hd] at split_source
        exact split_source
    · rename_i hne _ _
      cases h
      exact ⟨hne, split_source⟩

theorem operatorOf_tiling (length : Nat) : Tiling (operatorOf length) := by
  intro source scan h
  obtain ⟨op, hop, hs⟩ := Option.map_eq_some_iff.1 h
  cases hs
  refine ⟨?_, List.take_append_drop length source⟩
  intro hnil
  simp only at hnil
  rw [hnil, show Operator.scanned? (String.ofList []) = none by decide] at hop
  cases hop

theorem operator_tiling : Tiling operator := by
  intro source scan h
  rcases Option.or_eq_some_iff.1 h with h | ⟨_, h⟩
  · rcases Option.or_eq_some_iff.1 h with h | ⟨_, h⟩
    · exact operatorOf_tiling 3 h
    · exact operatorOf_tiling 2 h
  · exact operatorOf_tiling 1 h

end Rule

theorem scan_tiles {c : Char} {rest : List Char} {s : Scan} (h : scan c rest = .ok s) :
    s.Tiles (c :: rest) := by
  unfold scan at h
  cases hr : rules.findSome? (· (c :: rest)) with
  | none => rw [hr] at h; cases h
  | some answer =>
    rw [hr] at h
    obtain ⟨rule, hmem, happ⟩ := List.exists_of_findSome?_eq_some hr
    simp only [Option.getD_some] at h
    subst h
    simp only [rules, List.mem_cons, List.not_mem_nil, or_false] at hmem
    rcases hmem with rfl | rfl | rfl | rfl | rfl | rfl | rfl | rfl
    · exact Rule.lineComment_tiling happ
    · exact Rule.blockComment_tiling happ
    · exact Rule.layout_tiling happ
    · exact Rule.word_tiling happ
    · exact Rule.punctuation_tiling happ
    · exact Rule.string_tiling happ
    · exact Rule.number_tiling happ
    · exact Rule.operator_tiling happ

theorem scan_rest_lt {c : Char} {rest : List Char} {s : Scan} (h : scan c rest = .ok s) :
    s.rest.length < (c :: rest).length := by
  obtain ⟨hne, happ⟩ := scan_tiles h
  rw [← happ, List.length_append]
  have := List.length_pos_iff.2 hne
  omega

end FrontEnd
