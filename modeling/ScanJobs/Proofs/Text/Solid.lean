import ScanJobs.Text.Blank
import ScanJobs.Text.Split

/-! # Texts without blanks at their ends

A text is solid if it is not blank and has no blank character at either end; whatever stands between
two solid texts, the whole is solid (`Solid.append`). -/

namespace ScanJobs.Text

theorem dropWhile_reverse_eq_self_iff {p : Char → Bool} {cs : List Char} :
    cs.reverse.dropWhile p = cs.reverse ↔ ∀ c ∈ cs.getLast?, p c = false := by
  rw [dropWhile_eq_self_iff, List.head?_reverse]

/-- **Nothing blank at the ends**, and something between them. -/
structure Solid (s : String) : Prop where
  isBlank_eq : isBlank s = false
  strip_eq : strip s = s

/-- The first and the last character tell. -/
theorem solid_iff {s : String} :
    Solid s ↔ (∃ c ∈ s.toList.head?, isBlankChar c = false) ∧
      ∃ c ∈ s.toList.getLast?, isBlankChar c = false := by
  constructor
  · rintro ⟨hb, hs⟩
    have hne : s.toList ≠ [] := by
      intro h
      rw [isBlank, h] at hb
      cases hb
    have htrim : trimList isBlankChar s.toList = s.toList := by
      have h := congrArg String.toList hs
      rwa [strip, trim, String.toList_ofList] at h
    have hfirst : s.toList.dropWhile isBlankChar = s.toList := by
      rw [← htrim, dropWhile_trimList]
    have hlast : s.toList.reverse.dropWhile isBlankChar = s.toList.reverse := by
      have h := congrArg List.reverse htrim
      rwa [trimList, List.reverse_reverse, hfirst] at h
    rw [dropWhile_eq_self_iff] at hfirst
    rw [dropWhile_reverse_eq_self_iff] at hlast
    exact ⟨⟨_, List.head?_eq_some_head hne, hfirst _ (List.head?_eq_some_head hne)⟩,
      ⟨_, List.getLast?_eq_some_getLast hne, hlast _ (List.getLast?_eq_some_getLast hne)⟩⟩
  · rintro ⟨⟨a, ha, hab⟩, ⟨z, hz, hzb⟩⟩
    have hfirst : s.toList.dropWhile isBlankChar = s.toList := by
      rw [dropWhile_eq_self_iff]
      intro c hc
      rw [Option.mem_def] at ha hc
      rw [ha, Option.some.injEq] at hc
      exact hc ▸ hab
    have hlast : s.toList.reverse.dropWhile isBlankChar = s.toList.reverse := by
      rw [dropWhile_reverse_eq_self_iff]
      intro c hc
      rw [Option.mem_def] at hz hc
      rw [hz, Option.some.injEq] at hc
      exact hc ▸ hzb
    refine ⟨?_, ?_⟩
    · rw [isBlank, List.all_eq_false]
      exact ⟨a, List.mem_of_mem_head? ha, by simp [hab]⟩
    · rw [strip, trim, trimList, hfirst, hlast, List.reverse_reverse, String.ofList_toList]

theorem Solid.append {s t : String} (hs : Solid s) (between : String) (ht : Solid t) :
    Solid (s ++ between ++ t) := by
  obtain ⟨⟨a, ha, hab⟩, -⟩ := solid_iff.mp hs
  obtain ⟨-, ⟨z, hz, hzb⟩⟩ := solid_iff.mp ht
  rw [Option.mem_def] at ha hz
  refine solid_iff.mpr ⟨⟨a, ?_, hab⟩, ⟨z, ?_, hzb⟩⟩
  · simp [String.toList_append, List.head?_append, ha]
  · simp [String.toList_append, List.getLast?_append, hz]

theorem Solid.append_right {s t : String} (hs : Solid s) (ht : Solid t) : Solid (s ++ t) := by
  have h := hs.append "" ht
  rwa [String.append_empty] at h

/-- A text that holds a solid one is not blank. -/
theorem Solid.isBlank_append {s : String} (hs : Solid s) (t : String) : isBlank (s ++ t) = false := by
  have h := hs.isBlank_eq
  unfold isBlank at h ⊢
  rw [String.toList_append, List.all_append, h, Bool.false_and]

theorem Solid.isEmpty_eq {s : String} (hs : Solid s) : s.isEmpty = false := by
  rw [Bool.eq_false_iff]
  intro he
  obtain rfl : s = "" := by simpa using he
  cases hs.isBlank_eq

/-- A text that ends with a solid one is not blank. -/
theorem Solid.isBlank_append_left {t : String} (ht : Solid t) (s : String) : isBlank (s ++ t) = false := by
  have h := ht.isBlank_eq
  unfold isBlank at h ⊢
  rw [String.toList_append, List.all_append, h, Bool.and_false]

theorem not_mem_of_isBlank {s : String} (h : isBlank s = true) : '.' ∉ s.toList := by
  intro hmem
  have hdot := List.all_eq_true.mp h '.' hmem
  revert hdot
  decide

theorem solid_strip {s : String} (h : isBlank s = false) : Solid (strip s) :=
  ⟨by rw [isBlank_strip, h], strip_strip⟩

/-! ### Leading and last parts -/

theorem startsWith_iff {lead s : String} : startsWith lead s = true ↔ ∃ rest, s = lead ++ rest := by
  rw [startsWith, List.isPrefixOf_iff_prefix]
  constructor
  · rintro ⟨rest, h⟩
    exact ⟨String.ofList rest, by rw [← String.toList_inj, String.toList_append,
      String.toList_ofList, h]⟩
  · rintro ⟨rest, rfl⟩
    exact ⟨rest.toList, by rw [String.toList_append]⟩

theorem dropFirst_append (lead rest : String) : dropFirst lead.length (lead ++ rest) = rest := by
  rw [dropFirst, String.toList_append, ← String.length_toList, List.drop_left,
    String.ofList_toList]

/-- What stands behind a text and a dot. -/
theorem dropFirst_below (above rest : String) :
    dropFirst (above.length + 1) (above ++ "." ++ rest) = rest := by
  have h := dropFirst_append (above ++ ".") rest
  rwa [String.length_append] at h

theorem joinList_eq_append {sep : Char} {ps : List (List Char)} {p : List Char}
    (h : ps.getLast? = some p) : ∃ lead, joinList sep ps = lead ++ p := by
  induction ps with
  | nil => cases h
  | cons q ps ih =>
    cases ps with
    | nil =>
      cases h
      exact ⟨[], rfl⟩
    | cons q' ps =>
      rw [List.getLast?_cons_cons] at h
      obtain ⟨lead, hlead⟩ := ih h
      exact ⟨q ++ sep :: lead, by rw [joinList, hlead, List.append_assoc]; rfl⟩

/-- Pieces put together end with the last one. -/
theorem join_eq_append (sep : Char) {ps : List String} {p : String} (h : ps.getLast? = some p) :
    ∃ lead, join sep ps = lead ++ p := by
  have hlast : (ps.map String.toList).getLast? = some p.toList := by
    rw [List.getLast?_map, h]
    rfl
  obtain ⟨lead, hlead⟩ : ∃ lead, joinList sep (ps.map String.toList) = lead ++ p.toList :=
    joinList_eq_append hlast
  refine ⟨String.ofList lead, ?_⟩
  rw [join, hlead, String.ofList_append, String.ofList_toList]

theorem joinList_append {sep : Char} {ps qs : List (List Char)} (hp : ps ≠ []) (hq : qs ≠ []) :
    joinList sep (ps ++ qs) = joinList sep ps ++ sep :: joinList sep qs := by
  induction ps with
  | nil => exact absurd rfl hp
  | cons p ps ih =>
    cases ps with
    | nil =>
      cases qs with
      | nil => exact absurd rfl hq
      | cons q qs => rfl
    | cons p' ps =>
      have h := ih (by simp)
      rw [List.cons_append, List.cons_append, joinList, ← List.cons_append, h, joinList,
        List.append_assoc, List.cons_append]

theorem join_singleton (p : String) : join '.' [p] = p :=
  String.ofList_toList

theorem join_append {ps qs : List String} (hp : ps ≠ []) (hq : qs ≠ []) :
    join '.' (ps ++ qs) = join '.' ps ++ "." ++ join '.' qs := by
  have hps : ps.map String.toList ≠ [] := by simpa using hp
  have hqs : qs.map String.toList ≠ [] := by simpa using hq
  rw [join, List.map_append, joinList_append hps hqs, String.ofList_append, String.ofList_cons]
  rw [join, join, String.append_assoc]
  rfl

theorem splitList_append {sep : Char} (cs ds : List Char) :
    splitList sep (cs ++ sep :: ds) = splitList sep cs ++ splitList sep ds := by
  induction cs with
  | nil => simp [splitList]
  | cons c cs ih =>
    by_cases hc : c = sep
    · simp [splitList, hc, ih]
    · cases hs : splitList sep cs with
      | nil => exact absurd hs (splitList_ne_nil cs)
      | cons q qs => simp [splitList, hc, ih, hs]

/-- A part without the separator is a piece of the whole, whatever the other parts hold. -/
theorem mem_splitList_joinList {sep : Char} {ps : List (List Char)} {p : List Char} (hp : p ∈ ps)
    (h : sep ∉ p) : p ∈ splitList sep (joinList sep ps) := by
  induction ps with
  | nil => cases hp
  | cons q ps ih =>
    cases ps with
    | nil =>
      obtain rfl := List.mem_singleton.mp hp
      rw [joinList, splitList_of_not_mem h, List.mem_singleton]
    | cons q' ps =>
      rw [joinList, splitList_append, List.mem_append]
      rcases List.mem_cons.mp hp with rfl | hp
      · exact .inl (by rw [splitList_of_not_mem h, List.mem_singleton])
      · exact .inr (ih hp)

theorem mem_split_join {ps : List String} {p : String} (hp : p ∈ ps) (h : '.' ∉ p.toList) :
    p ∈ split '.' (join '.' ps) := by
  rw [split, join, String.toList_ofList]
  refine List.mem_map.mpr ⟨p.toList, ?_, String.ofList_toList⟩
  exact mem_splitList_joinList (List.mem_map_of_mem hp) h

/-- The first piece is the first part, if this has no separator. -/
theorem headD_split_join {p : String} (h : '.' ∉ p.toList) (ps : List String) :
    (split '.' (join '.' (p :: ps))).headD "" = p := by
  rw [split, join, String.toList_ofList, List.map_cons]
  cases ps with
  | nil =>
    rw [List.map_nil, joinList, splitList_of_not_mem h]
    exact String.ofList_toList
  | cons q ps =>
    rw [List.map_cons, joinList, splitList_append_cons h]
    exact String.ofList_toList

end ScanJobs.Text
