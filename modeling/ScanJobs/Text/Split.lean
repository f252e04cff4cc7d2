/-! # Pieces of a text

`split sep s` cuts a text at every occurrence of a character, `join sep ps` puts pieces together
with the character between them. They undo each other: `join_split` for every text, `split_join`
for every non-empty list of pieces that do not hold the character.
-/

namespace ScanJobs.Text

/-- Cuts a list at every occurrence of `sep`; the pieces are one more than the cuts. -/
def splitList (sep : Char) : List Char → List (List Char)
  | [] => [[]]
  | c :: cs =>
    if c = sep then [] :: splitList sep cs
    else match splitList sep cs with
      | [] => [[c]]
      | p :: ps => (c :: p) :: ps

/-- Puts pieces together with `sep` between them. -/
def joinList (sep : Char) : List (List Char) → List Char
  | [] => []
  | [p] => p
  | p :: q :: ps => p ++ sep :: joinList sep (q :: ps)

/-- The pieces of a text between the occurrences of `sep`. -/
def split (sep : Char) (s : String) : List String :=
  (splitList sep s.toList).map String.ofList

/-- The pieces in one text, with `sep` between them. -/
def join (sep : Char) (ps : List String) : String :=
  String.ofList (joinList sep (ps.map String.toList))

/-- The text starts with `lead`. -/
def startsWith (lead s : String) : Bool :=
  lead.toList.isPrefixOf s.toList

/-- The text less its first `n` characters. -/
def dropFirst (n : Nat) (s : String) : String :=
  String.ofList (s.toList.drop n)

variable {sep : Char}

theorem splitList_ne_nil (cs : List Char) : splitList sep cs ≠ [] := by
  cases cs with
  | nil => simp [splitList]
  | cons c cs =>
    by_cases h : c = sep
    · simp [splitList, h]
    · simp only [splitList, h, if_false]
      split <;> simp

theorem joinList_splitList (cs : List Char) : joinList sep (splitList sep cs) = cs := by
  induction cs with
  | nil => rfl
  | cons c cs ih =>
    by_cases h : c = sep
    · rw [splitList, if_pos h]
      cases hs : splitList sep cs with
      | nil => exact absurd hs (splitList_ne_nil cs)
      | cons p ps => rw [hs] at ih; simp [joinList, ih, h]
    · rw [splitList, if_neg h]
      cases hs : splitList sep cs with
      | nil => exact absurd hs (splitList_ne_nil cs)
      | cons p ps =>
        rw [hs] at ih
        cases ps with
        | nil => simpa [joinList] using ih
        | cons q qs => simpa [joinList] using ih

theorem splitList_of_not_mem {p : List Char} (h : sep ∉ p) : splitList sep p = [p] := by
  induction p with
  | nil => rfl
  | cons c p ih =>
    have hc : c ≠ sep := fun e => h (e ▸ List.mem_cons_self ..)
    have hp : sep ∉ p := fun m => h (List.mem_cons_of_mem _ m)
    simp [splitList, hc, ih hp]

theorem splitList_append_cons {p : List Char} (h : sep ∉ p) (cs : List Char) :
    splitList sep (p ++ sep :: cs) = p :: splitList sep cs := by
  induction p with
  | nil => simp [splitList]
  | cons c p ih =>
    have hc : c ≠ sep := fun e => h (e ▸ List.mem_cons_self ..)
    have hp : sep ∉ p := fun m => h (List.mem_cons_of_mem _ m)
    simp [splitList, hc, ih hp]

theorem not_mem_of_mem_splitList {cs p : List Char} (h : p ∈ splitList sep cs) : sep ∉ p := by
  induction cs generalizing p with
  | nil =>
    rw [splitList, List.mem_singleton] at h
    simp [h]
  | cons c cs ih =>
    by_cases hc : c = sep
    · rw [splitList, if_pos hc] at h
      rcases List.mem_cons.mp h with rfl | h
      · simp
      · exact ih h
    · rw [splitList, if_neg hc] at h
      cases hs : splitList sep cs with
      | nil => exact absurd hs (splitList_ne_nil cs)
      | cons q qs =>
        rw [hs] at h ih
        rcases List.mem_cons.mp h with rfl | h
        · have hq := ih (List.mem_cons_self ..)
          simp [Ne.symm hc, hq]
        · exact ih (List.mem_cons_of_mem _ h)

theorem splitList_joinList {ps : List (List Char)} (hne : ps ≠ []) (h : ∀ p ∈ ps, sep ∉ p) :
    splitList sep (joinList sep ps) = ps := by
  induction ps with
  | nil => exact absurd rfl hne
  | cons p ps ih =>
    cases ps with
    | nil => exact splitList_of_not_mem (h p (List.mem_cons_self ..))
    | cons q qs =>
      rw [joinList, splitList_append_cons (h p (List.mem_cons_self ..)),
        ih (by simp) fun r hr => h r (List.mem_cons_of_mem _ hr)]

theorem map_toList_map_ofList (ps : List (List Char)) :
    (ps.map String.ofList).map String.toList = ps := by
  induction ps with
  | nil => rfl
  | cons p ps ih => simp

theorem map_ofList_map_toList (ps : List String) :
    (ps.map String.toList).map String.ofList = ps := by
  induction ps with
  | nil => rfl
  | cons p ps ih => simp

theorem join_split (s : String) : join sep (split sep s) = s := by
  rw [join, split, map_toList_map_ofList, joinList_splitList, String.ofList_toList]

theorem split_ne_nil (s : String) : split sep s ≠ [] := by
  simp [split, splitList_ne_nil]

/-- The pieces do not hold the separator. -/
theorem not_mem_of_mem_split {s p : String} (h : p ∈ split sep s) : sep ∉ p.toList := by
  obtain ⟨q, hq, rfl⟩ := List.mem_map.1 h
  rw [String.toList_ofList]
  exact not_mem_of_mem_splitList hq

theorem split_join {ps : List String} (hne : ps ≠ []) (h : ∀ p ∈ ps, sep ∉ p.toList) :
    split sep (join sep ps) = ps := by
  rw [split, join, String.toList_ofList, splitList_joinList (by simpa using hne),
    map_ofList_map_toList]
  intro p hp
  obtain ⟨q, hq, rfl⟩ := List.mem_map.1 hp
  exact h q hq

end ScanJobs.Text
