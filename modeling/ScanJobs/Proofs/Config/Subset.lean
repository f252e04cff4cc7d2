import ScanJobs.Proofs.Config.Cells
import ScanJobs.Proofs.Config.Worker
import ScanJobs.Proofs.Schema.Addresses

/-! # Reading an option from a subset

The path of an option from the root is the path of a scope above it with the path from the scope below it,
if the upper names are one for each umbrella strictly above the scope (`Holds.path_along`). So the entries
inside the scope hold the option under its path from there exactly if the configuration holds it, and with
the same value (`subset_agrees_with_get`). -/

namespace ScanJobs.Schema

open ScanJobs.Text ScanJobs.Config

/-- The umbrellas strictly above an element. -/
def Site.umbrellasAbove (s : Site) : Nat :=
  placesBefore s.root.kind s.links

/-- **A path is the path of a scope and a path from there.** -/
theorem Holds.path_along {s : Schema} {n : Node} (h : s.Holds n) {ls : List Link} (hne : ls ≠ [])
    {upper lower : List String} (hupper : upper.length = n.site.umbrellasAbove)
    (hlower : lower.length ≤ places n.element.kind ls) :
    ∃ above, n.site.path upper = .ok above ∧
      (n.site.along ls).pathFrom n.site lower =
        .ok (join '.' (weaveFrom n.element.kind ls lower).1) ∧
      (n.site.along ls).path (upper ++ lower) =
        .ok (keyBelow above (join '.' (weaveFrom n.element.kind ls lower).1)) := by
  have hkind : (n.site.links.getLast?.map Link.kind).getD n.site.root.kind = n.element.kind := by
    rw [← h.kind_eq, Site.last]
    cases n.site.links.getLast? <;> rfl
  -- no name is left over in either part
  have hleft : (weaveFrom n.site.root.kind n.site.links upper).2 = [] := by
    rw [weaveFrom_snd]
    have hle := placesBefore_le n.site.root.kind n.site.links
    exact List.drop_eq_nil_of_le (hupper.trans_le hle)
  have hleft' : (weaveFrom n.element.kind ls lower).2 = [] := by
    rw [weaveFrom_snd]
    exact List.drop_eq_nil_of_le hlower
  have hway : weaveFrom n.site.root.kind (n.site.links ++ ls) (upper ++ lower) =
      ((weaveFrom n.site.root.kind n.site.links upper).1 ++ (weaveFrom n.element.kind ls lower).1, []) := by
    rw [weaveFrom_append_of_length hupper, hkind, hleft']
  refine ⟨join '.' (weaveFrom n.site.root.kind n.site.links upper).1, ?_, ?_, ?_⟩
  · rw [Site.path, Site.way, Site.components_eq_ok_iff.mpr (Prod.ext rfl hleft)]
    rfl
  · rw [Site.pathFrom_along, h.kind_eq, Site.components_eq_ok_iff.mpr (Prod.ext rfl hleft')]
    rfl
  · have hcomponents : (n.site.along ls).way (upper ++ lower) = .ok _ :=
      Site.components_eq_ok_iff.mpr hway
    rw [Site.path, hcomponents, keyBelow_join]
    · rfl
    · intro hne
      have hlinks : n.site.links ≠ [] := by
        intro hlinks
        rw [Site.umbrellasAbove, hlinks] at hupper
        obtain rfl : upper = [] := List.length_eq_zero_iff.mp hupper
        rw [hlinks] at hne
        cases hk : n.site.root.kind <;> exact hne (by rw [hk]; rfl)
      obtain ⟨l, hl⟩ := List.exists_mem_of_ne_nil _ hlinks
      exact ⟨l.name.text, (mem_weaveFrom_iff hleft).mpr (.inl ⟨l, hl, rfl⟩), l.name.solid.isEmpty_eq⟩
    · obtain ⟨l, hl⟩ := List.exists_mem_of_ne_nil _ hne
      exact List.ne_nil_of_mem ((mem_weaveFrom_iff hleft').mpr (.inl ⟨l, hl, rfl⟩))

end ScanJobs.Schema

namespace ScanJobs.Config

open Schema Text

/-- Whatever a scope leads to is inside it, under any names. -/
theorem Application.isInside_of_leads {n : Node} {ls : List Link} {e : Element}
    (hl : Leads n.element ls e) (hne : ls ≠ []) (names : List String) :
    isInside n (join '.' (weaveFrom n.element.kind ls names).1) = true := by
  obtain ⟨site, e₀⟩ := n
  rw [isInside, Bool.or_eq_true]
  by_cases hk : e₀.kind = .umbrella
  · exact .inr (beq_iff_eq.mpr hk)
  · left
    cases hl with
    | here => exact absurd rfl hne
    | @down _ e₁ _ name ls hc _ =>
      rw [weaveFrom_cons fun h => absurd h hk, headD_split_join name.noDot]
      simp [Node.declares, Node.child?, hc]

/-- **The single read and the subset read agree.** The entries inside a scope, with a name for each
umbrella strictly above it, hold an option under its path from the scope exactly if the configuration
holds it under the path that the option is looked up by, and with the same value. So the option is read as
what it takes the entry for, or as its default if there is none. -/
theorem subset_agrees_with_get {s : Schema} {n : Node} (hn : s.Holds n)
    (hscope : n.element.isOption = false) {o : OptionRef}
    (ho : ∃ d, s.Holds ⟨o.site, .option d o.type o.default⟩) {ls : List Link}
    (hbelow : o.site.below? n.site = some ls) {upper lower : List String}
    (hupper : upper.length = n.site.umbrellasAbove) (hlower : lower.length ≤ places n.element.kind ls)
    (a : Application) :
    ∃ entries key path, a.subset n upper = .ok entries ∧ o.site.pathFrom n.site lower = .ok key ∧
      o.site.path (upper ++ lower) = .ok path ∧ (entries.map Prod.fst).Nodup ∧
      (∀ raw, (key, raw) ∈ entries ↔ a.values.get? path = some raw) ∧
      (∀ raw, (key, raw) ∈ entries → a.get o (upper ++ lower) = validate o raw) ∧
      (key ∉ entries.map Prod.fst →
        a.get o (upper ++ lower) = o.default.elim (.error (.config .noDefault)) .ok) := by
  obtain ⟨d, hheld⟩ := ho
  obtain ⟨hsite, hl⟩ := hn.of_below? hheld hbelow
  dsimp only at hsite hl
  have hne := hl.ne_nil hscope rfl
  obtain ⟨above, habove, hkey, hpath⟩ := hn.path_along hne hupper hlower
  rw [← hsite] at hkey hpath
  obtain ⟨entries, hsub⟩ := a.exists_subset_of_path hscope habove
  have hmem : ∀ raw, (join '.' (weaveFrom n.element.kind ls lower).1, raw) ∈ entries ↔
      a.values.get? (keyBelow above (join '.' (weaveFrom n.element.kind ls lower).1)) = some raw := by
    intro raw
    rw [Application.mem_subset_iff hsub habove]
    exact and_iff_left (Application.isInside_of_leads hl hne lower)
  refine ⟨entries, _, _, hsub, hkey, hpath, ?_, hmem, fun raw hraw => ?_, fun hno => ?_⟩
  · have hnodup := Application.nodup_subset hsub habove
    have hmap : entries.map (fun e => keyBelow above e.1) = (entries.map Prod.fst).map (keyBelow above) := by
      rw [List.map_map]
      rfl
    rw [hmap] at hnodup
    exact List.Nodup.of_map _ hnodup
  · rw [Application.get_eq a hpath, (hmem raw).mp hraw]
  · cases hget : a.values.get? (keyBelow above (join '.' (weaveFrom n.element.kind ls lower).1)) with
    | some raw => exact absurd (List.mem_map.mpr ⟨_, (hmem raw).mpr hget, rfl⟩) hno
    | none =>
      rw [Application.get_eq a hpath, hget]
      cases o.default <;> rfl

/-- A value for the option below the nested umbrellas, under a name for each of them. -/
def nestedEntries : Application := ⟨.ofList [("u.a.v.x", .int 5)]⟩

/-- The inner umbrella takes its name from the path below it. -/
theorem nested_subset_agrees : ∃ inner entries, nestedSchema.Holds inner ∧
    inner.site = nestedRoot.site.along [nestedScope] ∧ nestedEntries.subset inner ["u"] = .ok entries ∧
    ("v.x", .int 5) ∈ entries ∧ nestedEntries.get nestedOption ["u", "v"] = .ok (.int 5) := by
  have hscope : Leads nestedUmbrellas [nestedScope]
      (.scope true .none [(optionName, .option .none .integer (some .none))]) :=
    @Leads.down _ (.scope true .none _) _ _ _ rfl (.here _)
  have hinner := nestedSchema_holds.along hscope
  have hoption := (nestedOption_cell (.nil nestedUmbrellas [nestedScope, ⟨optionName, .option⟩])).held
  obtain ⟨entries, key, path, hsub, hkey, hpath, -, hmem, hget, -⟩ :=
    @subset_agrees_with_get _ _ hinner rfl _ hoption _ rfl ["u"] ["v"] rfl (by decide) nestedEntries
  obtain rfl : key = "v.x" := Except.ok.inj (hkey.symm.trans rfl)
  obtain rfl : path = "u.a.v.x" := Except.ok.inj (hpath.symm.trans rfl)
  have hentry := (hmem (.int 5)).mpr rfl
  exact ⟨_, entries, hinner, rfl, hsub, hentry, (hget _ hentry).trans rfl⟩

end ScanJobs.Config
