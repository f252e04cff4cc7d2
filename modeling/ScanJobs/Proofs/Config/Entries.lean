import ScanJobs.Proofs.Config.Flattening
import ScanJobs.Proofs.Schema.Reading

/-! # The entries of a configuration

Every key of a configuration has something at both ends that is not blank (`solid_of_ofEntries`). The
entries inside a scope are those below its path (`mem_subset_iff`). -/

namespace ScanJobs.Config

open Schema Text

/-- **No key of a configuration is blank, or blank at an end.** -/
theorem Application.solid_of_ofEntries {es : List (Value × Value)} {a : Application}
    (h : Application.ofEntries es = .ok a) {key : String} {v : Value}
    (hv : a.values.get? key = some v) : Solid key := by
  obtain ⟨t, ht, rfl⟩ := map_eq_ok_iff.mp h
  exact (solid_of_flatten (.inl rfl) ht _ (Table.get?_eq_some_iff.mp hv)).1

/-! ### The entries inside a scope -/

namespace Application

theorem relativeKey?_eq_some_iff {path key rest : String} :
    relativeKey? path key = some rest ↔ key = keyBelow path rest := by
  unfold relativeKey? keyBelow
  split
  · simp
  · split
    · next hs =>
      obtain ⟨rest', rfl⟩ := startsWith_iff.mp hs
      rw [dropFirst_below, Option.some.injEq, String.append_right_inj]
    · next hs =>
      rw [startsWith_iff] at hs
      refine ⟨fun h => (by cases h), ?_⟩
      rintro rfl
      exact absurd ⟨rest, rfl⟩ hs

variable {a : Application} {scope : Node} {names : List String} {entries : List (String × Value)}
  {path : String}

theorem subset_eq (hs : a.subset scope names = .ok entries) (hp : scope.site.path names = .ok path) :
    entries = (a.below path).filter fun e => isInside scope e.1 := by
  unfold subset at hs
  rw [hp] at hs
  obtain ⟨path', hpath, hs⟩ := bind_eq_ok_iff.mp hs
  cases hpath
  dsimp only at hs
  split at hs
  · cases hs
  · exact (Except.ok.inj hs).symm

/-- A scope that has a path has entries inside it, if only none. -/
theorem exists_subset_of_path (a : Application) (hscope : scope.element.isOption = false)
    (hp : scope.site.path names = .ok path) : ∃ entries, a.subset scope names = .ok entries := by
  refine ⟨(a.below path).filter fun e => isInside scope e.1, ?_⟩
  rw [subset, hp, hscope]
  rfl

/-- **The entries inside a scope** stand below its path. -/
theorem mem_subset_iff (hs : a.subset scope names = .ok entries)
    (hp : scope.site.path names = .ok path) {key : String} {v : Value} :
    (key, v) ∈ entries ↔ a.values.get? (keyBelow path key) = some v ∧ isInside scope key = true := by
  rw [subset_eq hs hp, List.mem_filter, Table.get?_eq_some_iff, below, List.mem_filterMap]
  refine and_congr_left fun _ => ?_
  constructor
  · rintro ⟨⟨k, v'⟩, hmem, he⟩
    obtain ⟨rest, hrest, he⟩ := Option.map_eq_some_iff.mp he
    cases he
    rw [relativeKey?_eq_some_iff] at hrest
    exact hrest ▸ hmem
  · intro hmem
    exact ⟨_, hmem, by rw [relativeKey?_eq_some_iff.mpr rfl]; rfl⟩

/-- No two entries have the same key. -/
theorem nodup_subset (hs : a.subset scope names = .ok entries)
    (hp : scope.site.path names = .ok path) :
    (entries.map fun e => keyBelow path e.1).Nodup := by
  have hbelow : ∀ es : List (String × Value), ((es.filterMap fun e =>
      (relativeKey? path e.1).map fun key => (key, e.2)).map fun e => keyBelow path e.1).Sublist
        (es.map Prod.fst) := by
    intro es
    induction es with
    | nil => exact .slnil
    | cons e es ih =>
      rw [List.filterMap_cons]
      cases hr : relativeKey? path e.1 with
      | none => exact ih.cons _
      | some rest =>
        rw [List.map_cons, relativeKey?_eq_some_iff.mp hr]
        exact ih.cons_cons _
  rw [subset_eq hs hp]
  exact a.values.nodup.sublist (((List.filter_sublist ..).map _).trans (hbelow a.values.entries))

theorem subset_unique (hs : a.subset scope names = .ok entries) {entry entry' : String × Value}
    (h : entry ∈ entries) (h' : entry' ∈ entries) (hkey : entry'.1 = entry.1) : entry' = entry := by
  obtain ⟨path, hpath, -⟩ := bind_eq_ok_iff.mp hs
  rw [mapError_eq_ok_iff] at hpath
  obtain ⟨key, v⟩ := entry
  obtain ⟨key', v'⟩ := entry'
  obtain rfl : key' = key := hkey
  have hv := ((mem_subset_iff hs hpath).mp h).1
  have hv' := ((mem_subset_iff hs hpath).mp h').1
  cases hv.symm.trans hv'
  rfl

/-- A key that leads somewhere is inside. -/
theorem isInside_of_parse {n : Node} {key : String} {t : Target} (h : n.parse key = .ok t) :
    isInside n key = true := by
  obtain ⟨-, steps, htexts, hreads, -, -⟩ := Node.parse_eq_ok_iff.mp h
  obtain ⟨site, e⟩ := n
  unfold isInside
  rw [← htexts, Bool.or_eq_true]
  cases hreads with
  | done => exact absurd htexts.symm (split_ne_nil key)
  | down hf _ =>
    left
    simp [Step.text, Node.declares, Node.child?, Element.child?, Element.children, hf]
  | called _ _ => exact .inr rfl

end Application

end ScanJobs.Config
