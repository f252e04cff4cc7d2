import ScanJobs.Proofs.Value.Ordered

/-! # What values are compared by

A value without a row of items is a number, a text, bytes or a set to those who compare it, or nothing of
the kind (`Value.ground?`). Two such values can be compared exactly if they have the same ground
(`compare_eq_ok_iff`). So several can be sorted exactly if all of them have one ground
(`sorted_eq_ok_iff`), in whatever order they come and whichever of them are compared. -/

namespace ScanJobs.Value

/-- What values are compared as. -/
inductive Ground where
  | number
  | text
  | bytes
  | set
deriving DecidableEq, Repr

/-- **What the value is compared as**, if it is compared as a whole. -/
def ground? : Value → Option Ground
  | .bytes _ => some .bytes
  | .set _ => some .set
  | .frozenset _ => some .set
  | v => if v.number?.isSome then some .number else if v.text?.isSome then some .text else .none

/-- The value is compared item by item. -/
def isRow : Value → Bool
  | .list _ => true
  | .tuple _ => true
  | _ => false

variable {x y : Value} {xs : List Value}

theorem ground?_eq_number_iff : x.ground? = some .number ↔ x.number?.isSome = true := by
  unfold ground?
  split
  · exact ⟨nofun, nofun⟩
  · exact ⟨nofun, nofun⟩
  · exact ⟨nofun, nofun⟩
  · split
    · next h => exact ⟨fun _ => h, fun _ => rfl⟩
    · next h =>
      refine ⟨fun hg => ?_, fun hn => absurd hn h⟩
      split at hg
      · cases hg
      · cases hg

theorem ground?_eq_text_iff : x.ground? = some .text ↔ x.text?.isSome = true := by
  unfold ground?
  split
  · exact ⟨nofun, nofun⟩
  · exact ⟨nofun, nofun⟩
  · exact ⟨nofun, nofun⟩
  · split
    · next h =>
      obtain ⟨n, hn⟩ := Option.isSome_iff_exists.mp h
      rw [text?_of_number? hn]
      exact ⟨nofun, nofun⟩
    · split
      · next h => exact ⟨fun _ => h, fun _ => rfl⟩
      · next h => exact ⟨nofun, fun ht => absurd ht h⟩

theorem ground?_eq_bytes_iff : x.ground? = some .bytes ↔ ∃ bs, x = .bytes bs := by
  unfold ground?
  split
  · next bs => exact ⟨fun _ => ⟨bs, rfl⟩, fun _ => rfl⟩
  · exact ⟨nofun, nofun⟩
  · exact ⟨nofun, nofun⟩
  · next hno _ _ =>
    refine ⟨fun hg => ?_, fun ⟨bs, h⟩ => (hno bs h).elim⟩
    split at hg
    · cases hg
    · split at hg
      · cases hg
      · cases hg

theorem ground?_eq_set_iff :
    x.ground? = some .set ↔ ∃ ys, x = .set ys ∨ x = .frozenset ys := by
  unfold ground?
  split
  · exact ⟨nofun, nofun⟩
  · next ys => exact ⟨fun _ => ⟨ys, .inl rfl⟩, fun _ => rfl⟩
  · next ys => exact ⟨fun _ => ⟨ys, .inr rfl⟩, fun _ => rfl⟩
  · next _ hno hno' =>
    refine ⟨fun hg => ?_, fun ⟨ys, h⟩ => h.elim (fun h => (hno ys h).elim) fun h => (hno' ys h).elim⟩
    split at hg
    · cases hg
    · split at hg
      · cases hg
      · cases hg

/-! ### Two values -/

theorem compareLeaf_of_ground? {c : Comparison} {g : Ground} (hx : x.ground? = some g)
    (hy : y.ground? = some g) : ∃ b, compareLeaf c x y = .ok b := by
  cases g with
  | number =>
    obtain ⟨m, hm⟩ := Option.isSome_iff_exists.mp (ground?_eq_number_iff.mp hx)
    obtain ⟨n, hn⟩ := Option.isSome_iff_exists.mp (ground?_eq_number_iff.mp hy)
    exact ⟨c.numbers m n, by simp only [compareLeaf, hm, hn]⟩
  | text =>
    obtain ⟨s, hs⟩ := Option.isSome_iff_exists.mp (ground?_eq_text_iff.mp hx)
    obtain ⟨t, ht⟩ := Option.isSome_iff_exists.mp (ground?_eq_text_iff.mp hy)
    have hnumber : x.number? = .none := by
      cases hn : x.number? with
      | none => rfl
      | some n => cases (text?_of_number? hn).symm.trans hs
    exact ⟨c.ofOrder (s < t) (s == t), by simp only [compareLeaf, hnumber, hs, ht]⟩
  | bytes =>
    obtain ⟨bs, rfl⟩ := ground?_eq_bytes_iff.mp hx
    obtain ⟨bs', rfl⟩ := ground?_eq_bytes_iff.mp hy
    exact ⟨_, rfl⟩
  | set =>
    obtain ⟨ys, rfl | rfl⟩ := ground?_eq_set_iff.mp hx
    · obtain ⟨zs, rfl | rfl⟩ := ground?_eq_set_iff.mp hy
      · exact ⟨_, rfl⟩
      · exact ⟨_, rfl⟩
    · obtain ⟨zs, rfl | rfl⟩ := ground?_eq_set_iff.mp hy
      · exact ⟨_, rfl⟩
      · exact ⟨_, rfl⟩

theorem ground?_of_compareLeaf {c : Comparison} {b : Bool} (h : compareLeaf c x y = .ok b) :
    ∃ g, x.ground? = some g ∧ y.ground? = some g := by
  unfold compareLeaf at h
  split at h
  · next hm hn =>
    exact ⟨.number, ground?_eq_number_iff.mpr (by rw [hm, Option.isSome_some]),
      ground?_eq_number_iff.mpr (by rw [hn, Option.isSome_some])⟩
  · split at h
    · next hs ht =>
      exact ⟨.text, ground?_eq_text_iff.mpr (by rw [hs, Option.isSome_some]),
        ground?_eq_text_iff.mpr (by rw [ht, Option.isSome_some])⟩
    · split at h
      · exact ⟨.bytes, rfl, rfl⟩
      · exact ⟨.set, rfl, rfl⟩
      · exact ⟨.set, rfl, rfl⟩
      · exact ⟨.set, rfl, rfl⟩
      · exact ⟨.set, rfl, rfl⟩
      · cases h

theorem compare_of_isRow (h : x.isRow = false) (c : Comparison) (y : Value) :
    compare c x y = compareLeaf c x y := by
  unfold compare
  split
  · cases h
  · cases h
  · rfl

/-- **Two values can be compared** exactly if they are compared as the same. -/
theorem compare_eq_ok_iff (h : x.isRow = false) {c : Comparison} :
    (∃ b, compare c x y = .ok b) ↔ ∃ g, x.ground? = some g ∧ y.ground? = some g := by
  rw [compare_of_isRow h]
  exact ⟨fun ⟨_, hb⟩ => ground?_of_compareLeaf hb, fun ⟨_, hx, hy⟩ => compareLeaf_of_ground? hx hy⟩

/-! ### Several values -/

theorem sorted_eq_ok_iff_checkComparable : (∃ ys, sorted xs = .ok ys) ↔ checkComparable xs = .ok () := by
  constructor
  · rintro ⟨ys, h⟩
    obtain ⟨⟨⟩, hcheck, -⟩ := bind_eq_ok_iff.mp h
    exact hcheck
  · intro h
    exact ⟨_, bind_eq_ok_iff.mpr ⟨(), h, rfl⟩⟩

theorem ground?_of_checkComparable (h : ∀ x ∈ xs, x.isRow = false)
    (hcheck : checkComparable xs = .ok ()) : xs.length ≤ 1 ∨ ∃ g, ∀ x ∈ xs, x.ground? = some g := by
  induction xs with
  | nil => exact .inl (Nat.zero_le 1)
  | cons x xs ih =>
    cases xs with
    | nil => exact .inl (Nat.le_refl 1)
    | cons y xs =>
      obtain ⟨b, hb, hrest⟩ := bind_eq_ok_iff.mp hcheck
      have hy := h y (List.mem_cons_of_mem _ (List.mem_cons_self ..))
      obtain ⟨g, hgy, hgx⟩ := (compare_eq_ok_iff hy).mp ⟨b, hb⟩
      refine .inr ⟨g, ?_⟩
      have hall : ∀ z ∈ y :: xs, z.ground? = some g := by
        rcases ih (fun z hz => h z (List.mem_cons_of_mem _ hz)) hrest with hone | ⟨g', hg'⟩
        · obtain rfl : xs = [] := by simpa using hone
          intro z hz
          obtain rfl := List.mem_singleton.mp hz
          exact hgy
        · cases hgy.symm.trans (hg' y (List.mem_cons_self ..))
          exact hg'
      intro z hz
      rcases List.mem_cons.mp hz with rfl | hz
      · exact hgx
      · exact hall z hz

/-- **Values can be sorted** exactly if there are no two, or all are compared as the same. -/
theorem sorted_eq_ok_iff (h : ∀ x ∈ xs, x.isRow = false) :
    (∃ ys, sorted xs = .ok ys) ↔ xs.length ≤ 1 ∨ ∃ g, ∀ x ∈ xs, x.ground? = some g := by
  constructor
  · exact fun hs => ground?_of_checkComparable h (sorted_eq_ok_iff_checkComparable.mp hs)
  · rintro (hone | ⟨g, hg⟩)
    · match xs, hone with
      | [], _ => exact ⟨_, rfl⟩
      | [x], _ => exact ⟨_, rfl⟩
    · rw [sorted_eq_ok_iff_checkComparable]
      refine checkComparable_of_pairwise (pairwise_of_forall_mem fun x hx y hy => ?_)
      exact (compare_eq_ok_iff (h y hy)).mpr ⟨g, hg y hy, hg x hx⟩

end ScanJobs.Value
