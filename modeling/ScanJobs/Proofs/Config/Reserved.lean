import ScanJobs.Config.Flat
import ScanJobs.Config.Keys
import ScanJobs.Proofs.Table
import ScanJobs.Proofs.Text.Solid

/-! # The reserved keys and the keys below the prefix

Whatever the namespace, the keys for the class, the module and the root are three, and none of them is
the prefix or lies below it (`Keys.not_isUnder_above`): the key of the root has more letters in the
place of the dot. What is stored at one key leaves the others alone (`Flat.stored?_putAll`). -/

namespace ScanJobs.Config

open Text

theorem Flat.isUnder_iff {above key : String} :
    isUnder above key = true ↔ key = above ∨ ∃ rest, key = above ++ "." ++ rest := by
  rw [isUnder, Bool.or_eq_true, beq_iff_eq, startsWith_iff]

theorem Flat.isUnder_below (above path : String) : isUnder above (above ++ "." ++ path) = true :=
  isUnder_iff.mpr (.inr ⟨path, rfl⟩)

namespace Keys

/-- The keys that are not below the prefix. -/
def reserved (keys : Keys) : List String := [keys.jobClass, keys.jobModule, keys.root]

theorem reserved_nodup (name : String) : (under name).reserved.Nodup := by
  simp [reserved, under, String.append_right_inj]

/-- **No reserved key is the prefix or lies below it.** -/
theorem not_isUnder_above (name : String) {key : String} (h : key ∈ (under name).reserved) :
    Flat.isUnder (under name).above key = false := by
  obtain ⟨suffix, hmem, rfl⟩ : ∃ suffix, (suffix = ".scanjob.class" ∨
      suffix = ".scanjob.class-module" ∨ suffix = ".scanjob.conf-root") ∧ key = name ++ suffix := by
    simpa [reserved, under] using h
  rw [← Bool.not_eq_true, Flat.isUnder_iff]
  rintro (he | ⟨rest, he⟩)
  · have h := String.append_right_inj name |>.mp he
    rcases hmem with rfl | rfl | rfl <;> simp at h
  · change name ++ suffix = name ++ ".scanjob.conf" ++ "." ++ rest at he
    rw [String.append_assoc, String.append_assoc, String.append_right_inj] at he
    -- the first letter that differs comes before the end of the prefix, or in the place of the dot
    have h := congrArg String.toList he
    rw [String.toList_append, String.toList_append] at h
    rcases hmem with rfl | rfl | rfl <;> simp at h

/-- What is needed of a namespace is that it is not blank. -/
theorem ofNamespace_eq_ok_iff {name : String} {keys : Keys} :
    ofNamespace name = .ok keys ↔ isBlank name = false ∧ keys = under (strip name) := by
  unfold ofNamespace
  cases isBlank name with
  | true => simp
  | false => simp [eq_comm]

theorem solid_under {name : String} (h : Solid name) :
    Solid (under name).above ∧ ∀ key ∈ (under name).reserved, Solid key := by
  refine ⟨h.append_right ⟨by decide, by decide⟩, fun key hkey => ?_⟩
  simp only [reserved, List.mem_cons, List.not_mem_nil, or_false] at hkey
  rcases hkey with rfl | rfl | rfl
  · exact h.append_right ⟨by decide, by decide⟩
  · exact h.append_right ⟨by decide, by decide⟩
  · exact h.append_right ⟨by decide, by decide⟩

/-- The keys of a namespace that is accepted may be written. -/
theorem solid_of_ofNamespace {name : String} {keys : Keys} (h : ofNamespace name = .ok keys) :
    Solid keys.above ∧ ∀ key ∈ keys.reserved, Solid key := by
  obtain ⟨hb, rfl⟩ := ofNamespace_eq_ok_iff.mp h
  exact solid_under (solid_strip hb)

theorem not_isUnder_of_ofNamespace {name : String} {keys : Keys} {key : String}
    (h : ofNamespace name = .ok keys) (hkey : key ∈ keys.reserved) :
    Flat.isUnder keys.above key = false := by
  obtain ⟨-, rfl⟩ := ofNamespace_eq_ok_iff.mp h
  exact not_isUnder_above (strip name) hkey

theorem nodup_of_ofNamespace {name : String} {keys : Keys} (h : ofNamespace name = .ok keys) :
    keys.reserved.Nodup := by
  obtain ⟨-, rfl⟩ := ofNamespace_eq_ok_iff.mp h
  exact reserved_nodup (strip name)

end Keys

namespace Flat

theorem stored?_put (c : Flat) (key text k : String) :
    (c.put key text).stored? k = if strip key = k then some (.written text) else c.stored? k :=
  stored?_store c key k (.written text)

theorem putAll_cons (c : Flat) (e : String × String) (es : List (String × String)) :
    c.putAll (e :: es) = (c.put e.1 e.2).putAll es := rfl

/-- To store several texts is to bind their keys in turn. -/
theorem values_putAll (c : Flat) (es : List (String × String)) :
    (c.putAll es).values = c.values.insertAll (es.map fun e => (strip e.1, .written e.2)) := by
  induction es generalizing c with
  | nil => rfl
  | cons e es ih => exact ih (c.put e.1 e.2)

/-- **Keys that are not written keep what is stored.** -/
theorem stored?_putAll {es : List (String × String)} {k : String} (h : ∀ e ∈ es, strip e.1 ≠ k)
    (c : Flat) : (c.putAll es).stored? k = c.stored? k := by
  rw [stored?, values_putAll]
  refine Table.get?_insertAll_of_not_mem (fun hmem => ?_) c.values
  rw [List.map_map] at hmem
  obtain ⟨e, he, hk⟩ := List.mem_map.mp hmem
  exact h e he hk

/-- **Keys that are written hold their texts.** -/
theorem stored?_putAll_of_mem {es : List (String × String)} (hstrip : ∀ e ∈ es, strip e.1 = e.1)
    (huniq : ∀ k text text', (k, text) ∈ es → (k, text') ∈ es → text' = text) {k text : String}
    (h : (k, text) ∈ es) (c : Flat) : (c.putAll es).stored? k = some (.written text) := by
  rw [stored?, values_putAll]
  refine Table.get?_insertAll_of_mem (List.mem_map.mpr ⟨_, h, ?_⟩) (fun t ht => ?_) c.values
  · rw [hstrip _ h]
  · obtain ⟨e, he, hk⟩ := List.mem_map.mp ht
    rw [hstrip e he, Prod.mk.injEq] at hk
    obtain ⟨rfl, rfl⟩ := hk
    rw [huniq e.1 text e.2 h he]

end Flat

end ScanJobs.Config
