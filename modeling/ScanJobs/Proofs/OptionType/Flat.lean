import ScanJobs.OptionType.Flat
import ScanJobs.Proofs.Fallible

/-! # Which values have a flat form

A sequence or set is written item by item, and every other value as a whole: these are its written parts.
A value has a flat form if each of its parts can be stored as text and, where it is a set, its items can be
sorted in the order in which they are handed out (`exists_flattenIn_iff`, `flattenIn_eq_tooLong_iff`). -/

namespace ScanJobs

namespace Value

/-- The items of a set, which stand in no order of their own. -/
def unordered? : Value → Option (List Value)
  | .set xs => some xs
  | .frozenset xs => some xs
  | _ => .none

/-- What is written one by one: the items, or the value as a whole. -/
def writtenParts (v : Value) : List Value :=
  v.items?.getD [v]

/-- **Each part of the value can be written**: none of its integers has too many digits. -/
def HasShortParts (v : Value) : Prop :=
  ∀ x ∈ v.writtenParts, x.isStorable = true

theorem items?_of_unordered? {v : Value} {xs : List Value} (h : v.unordered? = some xs) :
    v.items? = some xs := by
  cases v with
  | set ys | frozenset ys => exact h
  | _ => cases h

theorem isStorable_int_iff {n : Int} : (Value.int n).isStorable = true ↔ Numeral.IsShort n := by
  simp [isStorable, plainIntegers, displayIntegers]

/-- A member is written under its name, unless it is its integer. -/
theorem isStorable_member_iff {m : Member} : (Value.member m).isStorable = true ↔
    (m.transparent = true → ∀ n, m.payload = .int n → Numeral.IsShort n) := by
  obtain ⟨family, name, payload, transparent⟩ := m
  cases transparent with
  | false => exact ⟨fun _ => nofun, fun _ => rfl⟩
  | true =>
    cases payload with
    | int n =>
      refine isStorable_int_iff.trans ⟨fun h _ k hk => ?_, fun h => h rfl n rfl⟩
      cases hk
      exact h
    | text s => exact ⟨fun _ _ => nofun, fun _ => rfl⟩

end Value

namespace OptionType

open Value

variable {l : Listing} {w : Value} {xs ys : List Value} {s : String}

theorem writeItems_eq_ok_iff :
    writeItems xs = .ok s ↔ (∀ x ∈ xs, x.isStorable = true) ∧ s = flattenItems xs := by
  unfold writeItems
  split
  · next h => exact ⟨fun hs => ⟨List.all_eq_true.mp h, (Except.ok.inj hs).symm⟩, fun hs => by rw [hs.2]⟩
  · next h => exact ⟨nofun, fun hs => absurd (List.all_eq_true.mpr hs.1) h⟩

theorem writeItems_eq_error_iff {f : Shapeless} :
    writeItems xs = .error f ↔ f = .tooLong ∧ ¬ ∀ x ∈ xs, x.isStorable = true := by
  unfold writeItems
  split
  · next h => exact ⟨nofun, fun hf => absurd (List.all_eq_true.mp h) hf.2⟩
  · next h =>
    refine ⟨fun hf => ⟨(Except.error.inj hf).symm, fun hall => h (List.all_eq_true.mpr hall)⟩, ?_⟩
    rintro ⟨rfl, -⟩
    rfl

theorem sortItems_eq_ok_iff : sortItems l xs = .ok ys ↔ Value.sorted (l.of xs) = .ok ys := by
  unfold sortItems
  cases Value.sorted (l.of xs) with
  | ok zs => exact ⟨fun h => by cases h; rfl, fun h => by cases h; rfl⟩
  | error i => exact ⟨nofun, nofun⟩

theorem sortItems_eq_error_iff {f : Shapeless} :
    sortItems l xs = .error f ↔ ∃ i, Value.sorted (l.of xs) = .error i ∧ f = .unsortable i := by
  unfold sortItems
  cases Value.sorted (l.of xs) with
  | ok zs => exact ⟨nofun, fun ⟨_, h, _⟩ => by cases h⟩
  | error i =>
    constructor
    · intro h
      cases h
      exact ⟨i, rfl, rfl⟩
    · rintro ⟨_, h, rfl⟩
      cases h
      rfl

theorem perm_of_sorted (h : Value.sorted xs = .ok ys) : ys.Perm xs := by
  obtain ⟨-, -, hmerge⟩ := bind_eq_ok_iff.mp h
  cases hmerge
  exact List.mergeSort_perm _ _

/-- A set is sorted into the items that it has. -/
theorem perm_of_sortItems (h : sortItems l xs = .ok ys) : ys.Perm xs :=
  (perm_of_sorted (sortItems_eq_ok_iff.mp h)).trans (l.perm xs)

theorem flattenIn_of_unordered (h : w.unordered? = some xs) :
    flattenIn l w = sortItems l xs >>= writeItems := by
  cases w with
  | set ys | frozenset ys =>
    cases h
    rfl
  | _ => cases h

theorem hasShortParts_iff_items (h : w.items? = some xs) :
    w.HasShortParts ↔ ∀ x ∈ xs, x.isStorable = true := by
  rw [HasShortParts, writtenParts, h, Option.getD_some]

theorem hasShortParts_iff_whole (h : w.items? = Option.none) :
    w.HasShortParts ↔ w.isStorable = true := by
  rw [HasShortParts, writtenParts, h, Option.getD_none, List.forall_mem_singleton]

theorem flattenIn_of_whole (hitems : w.items? = Option.none) (hbool : ∀ b, w ≠ .bool b) :
    flattenIn l w = if w.isStorable then .ok w.plain else .error .tooLong := by
  cases w with
  | bool b => exact absurd rfl (hbool b)
  | list _ | tuple _ | set _ | frozenset _ => cases hitems
  | _ => rfl

theorem flattenIn_whole_eq_ok_iff (hitems : w.items? = Option.none) (hbool : ∀ b, w ≠ .bool b) :
    flattenIn l w = .ok s ↔ w.isStorable = true ∧ s = w.plain := by
  rw [flattenIn_of_whole hitems hbool]
  split
  · next h => exact ⟨fun hs => ⟨h, (Except.ok.inj hs).symm⟩, fun hs => by rw [hs.2]⟩
  · next h => exact ⟨nofun, fun hs => absurd hs.1 h⟩

/-- What is no set is written in one form, in whatever order sets hand out their items. -/
theorem flattenIn_of_ordered (h : w.unordered? = Option.none) (hparts : w.HasShortParts) :
    ∃ s, ∀ l, flattenIn l w = .ok s := by
  have hwhole : w.items? = Option.none → (∀ b, w ≠ .bool b) → ∃ s, ∀ l, flattenIn l w = .ok s := by
    intro hno hbool
    have hw := (hasShortParts_iff_whole hno).mp hparts
    exact ⟨w.plain, fun l => (flattenIn_whole_eq_ok_iff hno hbool).mpr ⟨hw, rfl⟩⟩
  cases w with
  | set xs | frozenset xs => cases h
  | list xs | tuple xs => exact ⟨_, fun _ => writeItems_eq_ok_iff.mpr ⟨hparts, rfl⟩⟩
  | bool b => exact ⟨_, fun _ => rfl⟩
  | _ => exact hwhole rfl nofun

theorem flattenIn_of_ordered_of_not (h : w.unordered? = Option.none) (hparts : ¬ w.HasShortParts) :
    flattenIn l w = .error .tooLong := by
  have hwhole : w.items? = Option.none → (∀ b, w ≠ .bool b) → flattenIn l w = .error .tooLong := by
    intro hno hbool
    rw [flattenIn_of_whole hno hbool, if_neg fun hw => hparts ((hasShortParts_iff_whole hno).mpr hw)]
  cases w with
  | set xs | frozenset xs => cases h
  | list xs | tuple xs => exact writeItems_eq_error_iff.mpr ⟨rfl, hparts⟩
  | bool b => exact absurd ((hasShortParts_iff_whole rfl).mpr rfl) hparts
  | _ => exact hwhole rfl nofun

/-- The items of a set, if it is one, can be sorted in the order in which they are handed out. -/
def Sortable (l : Listing) (w : Value) : Prop :=
  ∀ xs, w.unordered? = some xs → ∃ ys, Value.sorted (l.of xs) = .ok ys

theorem sortable_iff_of_unordered (h : w.unordered? = some xs) :
    Sortable l w ↔ ∃ ys, Value.sorted (l.of xs) = .ok ys := by
  unfold Sortable
  simp only [h, Option.some.injEq, forall_eq']

theorem sortable_of_ordered (h : w.unordered? = Option.none) : Sortable l w :=
  fun _ hxs => absurd (h.symm.trans hxs) nofun

/-- The items of a set that is sorted can be written as they can before. -/
theorem hasShortParts_iff_sorted (h : w.unordered? = some xs) (hys : Value.sorted (l.of xs) = .ok ys) :
    w.HasShortParts ↔ ∀ y ∈ ys, y.isStorable = true := by
  have hperm : ys.Perm xs := (perm_of_sorted hys).trans (l.perm xs)
  rw [hasShortParts_iff_items (items?_of_unordered? h)]
  exact ⟨fun hall y hy => hall y (hperm.mem_iff.mp hy), fun hall x hx => hall x (hperm.mem_iff.mpr hx)⟩

/-- **A value has a flat form** if its items can be sorted, where it is a set, and each part of it can be
written. -/
theorem exists_flattenIn_iff : (∃ s, flattenIn l w = .ok s) ↔ Sortable l w ∧ w.HasShortParts := by
  cases h : w.unordered? with
  | none =>
    refine ⟨fun ⟨s, hs⟩ => ⟨sortable_of_ordered h, Classical.byContradiction fun hparts => ?_⟩,
      fun hw => ?_⟩
    · cases hs.symm.trans (flattenIn_of_ordered_of_not h hparts)
    · obtain ⟨s, hs⟩ := flattenIn_of_ordered h hw.2
      exact ⟨s, hs l⟩
  | some xs =>
    rw [flattenIn_of_unordered h, sortable_iff_of_unordered h]
    simp only [bind_eq_ok_iff, sortItems_eq_ok_iff, writeItems_eq_ok_iff]
    constructor
    · rintro ⟨_, ys, hys, hstorable, -⟩
      exact ⟨⟨ys, hys⟩, (hasShortParts_iff_sorted h hys).mpr hstorable⟩
    · rintro ⟨⟨ys, hys⟩, hparts⟩
      exact ⟨_, ys, hys, (hasShortParts_iff_sorted h hys).mp hparts, rfl⟩

/-- **An integer is too long** if some part cannot be written; that is found after the items of a set were
sorted. -/
theorem flattenIn_eq_tooLong_iff :
    flattenIn l w = .error .tooLong ↔ Sortable l w ∧ ¬ w.HasShortParts := by
  cases h : w.unordered? with
  | none =>
    refine ⟨fun hlong => ⟨sortable_of_ordered h, fun hparts => ?_⟩,
      fun hw => flattenIn_of_ordered_of_not h hw.2⟩
    obtain ⟨s, hs⟩ := flattenIn_of_ordered h hparts
    cases hlong.symm.trans (hs l)
  | some xs =>
    rw [flattenIn_of_unordered h, sortable_iff_of_unordered h]
    simp only [bind_eq_error_iff, sortItems_eq_ok_iff, sortItems_eq_error_iff, writeItems_eq_error_iff]
    constructor
    · rintro (⟨_, -, hf⟩ | ⟨ys, hys, -, hstorable⟩)
      · cases hf
      · exact ⟨⟨ys, hys⟩, fun hparts => hstorable ((hasShortParts_iff_sorted h hys).mp hparts)⟩
    · rintro ⟨⟨ys, hys⟩, hparts⟩
      exact .inr ⟨ys, hys, trivial, fun hall => hparts ((hasShortParts_iff_sorted h hys).mpr hall)⟩

/-- Sets that are sorted alike are written alike. -/
theorem flattenIn_eq_of_sorted {l' : Listing}
    (h : ∀ xs, w.unordered? = some xs → Value.sorted (l.of xs) = Value.sorted (l'.of xs)) :
    flattenIn l w = flattenIn l' w := by
  cases w with
  | set xs | frozenset xs =>
    rw [flattenIn_of_unordered rfl, flattenIn_of_unordered rfl, sortItems, sortItems, h xs rfl]
  | _ => rfl

end OptionType

end ScanJobs
