import Mathlib.Data.List.Nodup
import ScanJobs.Proofs.Config.Entries
import ScanJobs.Proofs.Config.Merging

/-! # What determines a merge

A merge is a function of the entries inside the root, taken as a set: their order in the job's
configuration does not matter, nor what else there is (`merge_determined`). It fails as the least key
that cannot be written does; and where several keys stand for one key of the flat configuration, the
text of the greatest is stored there (`Merges`). -/

namespace ScanJobs.Config

open Schema Text

/-! ### The entries inside a root -/

/-- The configuration holds the value under the key inside the scope. -/
def Application.Inside (a : Application) (scope : Node) (key : String) (v : Value) : Prop :=
  Application.isInside scope key = true ∧
    ∃ path, scope.site.path [] = .ok path ∧ a.values.get? (keyBelow path key) = some v

/-- **The entries inside a scope, in the order of their keys.** -/
structure InOrder (a : Application) (scope : Node) (entries : List (String × Value)) : Prop where
  mem_iff : ∀ e, e ∈ entries ↔ a.Inside scope e.1 e.2
  increasing : entries.Pairwise fun e e' => e.1 < e'.1

theorem inOrder_sortByKey {a : Application} {scope : Node} {entries : List (String × Value)}
    (h : a.subset scope [] = .ok entries) : InOrder a scope (sortByKey entries) := by
  obtain ⟨path, hpath⟩ := Site.exists_path_nil scope.site
  constructor
  · intro e
    rw [sortByKey, List.mem_mergeSort, Application.mem_subset_iff h hpath, Application.Inside, hpath,
      and_comm]
    simp
  · have hnodup := Application.nodup_subset h hpath
    have hmap : (entries.map Prod.fst).map (keyBelow path) =
        entries.map fun e => keyBelow path e.1 := List.map_map
    rw [← hmap] at hnodup
    exact pairwise_lt_sortByKey (List.Nodup.of_map _ hnodup)

namespace InOrder

variable {a a' : Application} {scope : Node} {entries entries' before after : List (String × Value)}
  {e e' : String × Value}

theorem nodup (h : InOrder a scope entries) : entries.Nodup := by
  refine h.increasing.imp fun {e e'} hlt heq => ?_
  rw [heq] at hlt
  exact String.lt_irrefl _ hlt

/-- **The order leaves no choice**: the same entries are the same list. -/
theorem unique (h : InOrder a scope entries) (h' : InOrder a' scope entries')
    (hsame : ∀ key v, a.Inside scope key v ↔ a'.Inside scope key v) : entries = entries' := by
  have hperm : entries.Perm entries' := by
    rw [List.perm_ext_iff_of_nodup h.nodup h'.nodup]
    intro e
    rw [h.mem_iff, h'.mem_iff, hsame]
  exact hperm.eq_of_pairwise (fun e e' _ _ hlt hgt => absurd hgt (String.lt_asymm hlt))
    h.increasing h'.increasing

/-- What stands behind an entry has greater keys. -/
theorem lt_of_mem_after (h : InOrder a scope (before ++ e :: after)) (he : e' ∈ after) :
    e.1 < e'.1 :=
  (List.pairwise_cons.mp (List.pairwise_append.mp h.increasing).2.1).1 e' he

/-- What has a lesser key stands before. -/
theorem mem_before_of_lt (h : InOrder a scope (before ++ e :: after)) (he : a.Inside scope e'.1 e'.2)
    (hlt : e'.1 < e.1) : e' ∈ before := by
  rcases List.mem_append.mp ((h.mem_iff e').mpr he) with hbefore | hrest
  · exact hbefore
  · rcases List.mem_cons.mp hrest with rfl | hafter
    · exact absurd hlt (String.lt_irrefl _)
    · exact absurd (h.lt_of_mem_after hafter) (String.lt_asymm hlt)

end InOrder

/-- **What is to be written is read off the entries in their order**, and off nothing else. -/
theorem exists_inOrder {r : Node} (hscope : r.element.isOption = false) (a : Application) :
    ∃ entries, InOrder a r entries ∧
      ∀ above, writesFor ⟨r, above⟩ a = entries.mapM (writeFor ⟨r, above⟩) := by
  obtain ⟨entries, hsub⟩ := a.exists_subset hscope
  refine ⟨sortByKey entries, inOrder_sortByKey hsub, fun above => ?_⟩
  rw [writesFor, hsub]
  rfl

/-! ### What comes of a merge -/

/-- **What comes of a merge**, told by the set of the entries inside the root. -/
inductive Merges (r : Node) (keys : Keys) (a : Application) (c : Flat) :
    Except Failure (Option View) → Flat → Prop where
  /-- The least key that cannot be written fails. -/
  | fails {key : String} {v : Value} {f : Failure} (inside : a.Inside r key v)
      (failure : writeFor ⟨r, keys.above⟩ (key, v) = .error f)
      (least : ∀ key' v', a.Inside r key' v' → key' < key →
        ∃ write, writeFor ⟨r, keys.above⟩ (key', v') = .ok write) :
      Merges r keys a c (.error f) c
  /-- Each key of the flat configuration has the text of the greatest key that stands for it. -/
  | writes {c' : Flat} (all : ∀ key v, a.Inside r key v →
        ∃ write, writeFor ⟨r, keys.above⟩ (key, v) = .ok write)
      (root : c'.stored? keys.root = some (.written r.name))
      (greatest : ∀ key v k text, a.Inside r key v →
        writeFor ⟨r, keys.above⟩ (key, v) = .ok (k, text) →
        (∀ key' v' text', a.Inside r key' v' →
          writeFor ⟨r, keys.above⟩ (key', v') = .ok (k, text') → key' ≤ key) →
        c'.stored? k = some (.written text))
      (others : ∀ k, k ≠ keys.root → (∀ key v text, a.Inside r key v →
          writeFor ⟨r, keys.above⟩ (key, v) ≠ .ok (k, text)) →
        c'.stored? k = c.stored? k) :
      Merges r keys a c (.ok (some ⟨r, keys.above⟩)) c'

/-- Of the texts that are stored under one key the last stays. -/
theorem Flat.stored?_putAll_last {before after : List (String × String)} {k text : String}
    (hk : strip k = k) (hafter : ∀ e ∈ after, strip e.1 ≠ k) (c : Flat) :
    (c.putAll (before ++ (k, text) :: after)).stored? k = some (.written text) := by
  have hsplit : c.putAll (before ++ (k, text) :: after) =
      ((c.putAll before).put k text).putAll after := List.foldl_append
  rw [hsplit, stored?_putAll hafter, stored?_put, if_pos hk]

/-- Each item has its result at the same place. -/
theorem exists_split_of_mapM {ε α β : Type} {f : α → Except ε β} {before after : List α} {x : α} {y : β}
    {ys : List β} (h : (before ++ x :: after).mapM f = .ok ys) (hx : f x = .ok y) :
    ∃ ys₁ ys₂, ys = ys₁ ++ y :: ys₂ ∧ after.mapM f = .ok ys₂ := by
  have hmap := mapM_eq_ok_iff.mp h
  rw [List.map_append, List.map_cons, hx] at hmap
  obtain ⟨ys₁, rest, rfl, -, hrest⟩ := List.map_eq_append_iff.mp hmap.symm
  obtain ⟨y', ys₂, rfl, hy, hys₂⟩ := List.map_eq_cons_iff.mp hrest
  obtain rfl := Except.ok.inj hy
  exact ⟨ys₁, ys₂, rfl, mapM_eq_ok_iff.mpr hys₂.symm⟩

/-- The text of the greatest key is the last to be stored. -/
theorem stored?_of_greatest {s : Schema} {r : Node} (hr : s.Holds r) {above : String}
    (ha : Solid above) {a : Application} {entries : List (String × Value)} (h : InOrder a r entries)
    {writes : List (String × String)} (hwrites : entries.mapM (writeFor ⟨r, above⟩) = .ok writes)
    {e : String × Value} {k text : String} (he : e ∈ entries)
    (hwrite : writeFor ⟨r, above⟩ e = .ok (k, text))
    (hgreatest : ∀ key' v' text', a.Inside r key' v' →
      writeFor ⟨r, above⟩ (key', v') = .ok (k, text') → key' ≤ e.1) (c : Flat) :
    (c.putAll writes).stored? k = some (.written text) := by
  obtain ⟨before, after, rfl⟩ := List.append_of_mem he
  obtain ⟨writes₁, writes₂, rfl, hafter⟩ := exists_split_of_mapM hwrites hwrite
  have hk : strip k = k := (solid_of_writeFor hr ha hwrite).strip_eq
  refine Flat.stored?_putAll_last hk (fun write hmem => ?_) c
  obtain ⟨e', he', hwrite'⟩ := (mem_of_mapM hafter).mp hmem
  have hsolid := solid_of_writeFor hr ha hwrite'
  rw [hsolid.strip_eq]
  rintro rfl
  -- an entry that comes later has a greater key, so it does not stand for this one
  have hlt := h.lt_of_mem_after he'
  have hinside := (h.mem_iff e').mp (by simp [he'])
  exact String.not_le.mpr hlt (hgreatest _ _ _ hinside hwrite')

theorem merges_of_mapM_ok {s : Schema} {r : Node} (hr : s.Holds r) {name : String} {keys : Keys}
    (hkeys : Keys.ofNamespace name = .ok keys) {a : Application} {entries : List (String × Value)}
    (h : InOrder a r entries)
    (hread : writesFor ⟨r, keys.above⟩ a = entries.mapM (writeFor ⟨r, keys.above⟩))
    {writes : List (String × String)}
    (hwrites : entries.mapM (writeFor ⟨r, keys.above⟩) = .ok writes) (c : Flat) :
    Merges r keys a c (.ok (some ⟨r, keys.above⟩)) (c.putAll ((keys.root, r.name) :: writes)) := by
  obtain ⟨hroot, hothers⟩ := stored?_of_writesFor hr hkeys (hread.trans hwrites) c
  refine .writes (fun key v hin => ?all) hroot (fun key v k text hin hwrite hgreatest => ?greatest)
    (fun k hne hnone => ?others)
  case all => exact exists_of_mapM hwrites ((h.mem_iff (key, v)).mpr hin)
  case greatest =>
    rw [Flat.putAll_cons]
    exact stored?_of_greatest hr (Keys.solid_of_ofNamespace hkeys).1 h hwrites
      ((h.mem_iff (key, v)).mpr hin) hwrite hgreatest (c.put keys.root r.name)
  case others =>
    refine hothers k hne fun hmem => ?_
    obtain ⟨⟨k', text⟩, hwrite, rfl⟩ := List.mem_map.mp hmem
    obtain ⟨⟨key, v⟩, hentry, he⟩ := (mem_of_mapM hwrites).mp hwrite
    exact hnone key v text ((h.mem_iff (key, v)).mp hentry) he

/-- What a merge does with a job's configuration is to look for what is to be written. -/
theorem merge_congr {r : Node} {a a' : Application}
    (h : ∀ above, writesFor ⟨r, above⟩ a = writesFor ⟨r, above⟩ a') (keys : Keys) (g : Given Flat) :
    (merge (.this a) (.this r) keys).on g = (merge (.this a') (.this r) keys).on g := by
  have hpair : ∀ b : Application, checkPairing (.this b) (.this r) = .ok () := fun _ => rfl
  have hfound : ∀ w, View.create r keys.above = .ok w → writesFor w a = writesFor w a' := by
    intro w hw
    obtain ⟨above, -, rfl⟩ := map_eq_ok_iff.mp hw
    exact h above
  cases hview : View.create r keys.above with
  | error f =>
    cases g <;> simp only [merge, Act.on_bind, Act.on_ofExcept, Act.on_read, hpair, Given.get_this,
      Given.isSome, hview]
  | ok w =>
    cases g <;> simp only [merge, Act.on_bind, Act.on_ofExcept, Act.on_read, hpair, Given.get_this,
      Given.isSome, hview, hfound w hview]

theorem merges_of_inOrder {s : Schema} {r : Node} (hr : s.Holds r) {name : String} {keys : Keys}
    (hkeys : Keys.ofNamespace name = .ok keys) {a : Application} {entries : List (String × Value)}
    (h : InOrder a r entries)
    (hread : writesFor ⟨r, keys.above⟩ a = entries.mapM (writeFor ⟨r, keys.above⟩))
    (c : Flat) : ∃ result c', (merge (.this a) (.this r) keys).on (.this c) = (result, .this c') ∧
      Merges r keys a c result c' := by
  obtain ⟨ha, hreserved⟩ := Keys.solid_of_ofNamespace hkeys
  have hroot : isBlank keys.root = false := (hreserved _ (by simp [Keys.reserved])).isBlank_eq
  cases hmap : entries.mapM (writeFor ⟨r, keys.above⟩) with
  | ok writes =>
    refine ⟨_, _, merge_on_this_ok ha hroot (hread.trans hmap) c, ?_⟩
    exact merges_of_mapM_ok hr hkeys h hread hmap c
  | error f =>
    refine ⟨_, _, merge_on_this_error ha hroot (hread.trans hmap) c, ?_⟩
    obtain ⟨before, e, after, rfl, hbefore, he⟩ := mapM_eq_error_iff.mp hmap
    refine .fails ((h.mem_iff e).mp (by simp)) he fun key' v' hinside hlt => ?_
    exact hbefore (key', v') (h.mem_before_of_lt hinside hlt)

/-- **A merge depends on the entries inside the root alone**, not on their order or on any others: with
two configurations that hold the same entries there it does the same, whether it fails or not. What it
does is told by the set of these entries. -/
theorem merge_determined {s : Schema} {r : Node} (hr : s.Holds r) (hscope : r.element.isOption = false)
    {a a' : Application} (hsame : ∀ key v, a.Inside r key v ↔ a'.Inside r key v) (keys : Keys) :
    (∀ g, (merge (.this a) (.this r) keys).on g = (merge (.this a') (.this r) keys).on g) ∧
    ∀ name, Keys.ofNamespace name = .ok keys → ∀ c, ∃ result c',
      (merge (.this a) (.this r) keys).on (.this c) = (result, .this c') ∧
        Merges r keys a c result c' := by
  obtain ⟨entries, hin, hread⟩ := exists_inOrder hscope a
  obtain ⟨entries', hin', hread'⟩ := exists_inOrder hscope a'
  obtain rfl : entries = entries' := hin.unique hin' hsame
  refine ⟨merge_congr (fun above => (hread above).trans (hread' above).symm) keys, ?_⟩
  intro name hkeys c
  exact merges_of_inOrder hr hkeys hin (hread _) c

/-- Entries under two keys that stand for one. -/
def twoSpellings : Application := ⟨Table.ofList [("u.a.x", .int 1), ("a.u.x", .int 2)]⟩

/-- The same entries in the other order. -/
def twoSpellingsReversed : Application := ⟨Table.ofList [("a.u.x", .int 2), ("u.a.x", .int 1)]⟩

theorem inside_nestedRoot_iff {a : Application} {key : String} {v : Value} :
    a.Inside nestedRoot key v ↔ (key, v) ∈ a.values.entries := by
  have hpath : nestedRoot.site.path [] = .ok "" := rfl
  have hin : Application.isInside nestedRoot key = true := Bool.or_true _
  rw [Application.Inside, hpath, hin, ← Table.get?_eq_some_iff]
  simp [keyBelow]

theorem mem_twoSpellings {e : String × Value} :
    e ∈ twoSpellings.values.entries ↔ e = ("u.a.x", .int 1) ∨ e = ("a.u.x", .int 2) := by
  have hentries : twoSpellings.values.entries = [("u.a.x", .int 1), ("a.u.x", .int 2)] := rfl
  simp [hentries]

theorem mem_twoSpellingsReversed {e : String × Value} :
    e ∈ twoSpellingsReversed.values.entries ↔ e ∈ twoSpellings.values.entries := by
  have hentries : twoSpellingsReversed.values.entries = [("a.u.x", .int 2), ("u.a.x", .int 1)] := rfl
  rw [mem_twoSpellings]
  simp [hentries, or_comm]

/-- In either order the greater of the two keys counts. -/
theorem merge_twoSpellings : ∃ result c',
    (merge (.this twoSpellings) (.this nestedRoot) Keys.standard).on (.this Flat.empty) =
      (result, .this c') ∧
    (merge (.this twoSpellingsReversed) (.this nestedRoot) Keys.standard).on (.this Flat.empty) =
      (result, .this c') ∧
    c'.stored? "scanrunner.scanjob.conf.u.a.x" = some (.written "1") := by
  have hkeys : Keys.ofNamespace "scanrunner" = .ok Keys.standard := rfl
  have hfirst : writeFor ⟨nestedRoot, Keys.standard.above⟩ ("u.a.x", .int 1) =
      .ok ("scanrunner.scanjob.conf.u.a.x", "1") := rfl
  have hsecond : writeFor ⟨nestedRoot, Keys.standard.above⟩ ("a.u.x", .int 2) =
      .ok ("scanrunner.scanjob.conf.u.a.x", "2") := rfl
  have hsame : ∀ key v, twoSpellings.Inside nestedRoot key v ↔
      twoSpellingsReversed.Inside nestedRoot key v := fun key v => by
    rw [inside_nestedRoot_iff, inside_nestedRoot_iff, mem_twoSpellingsReversed]
  obtain ⟨halike, htold⟩ := merge_determined nestedSchema_holds rfl hsame Keys.standard
  obtain ⟨result, c', hrun, hmerges⟩ := htold _ hkeys Flat.empty
  refine ⟨result, c', hrun, (halike _).symm.trans hrun, ?_⟩
  cases hmerges with
  | fails inside failure =>
    rcases mem_twoSpellings.mp (inside_nestedRoot_iff.mp inside) with he | he
    · rw [he, hfirst] at failure
      cases failure
    · rw [he, hsecond] at failure
      cases failure
  | writes all root greatest others =>
    have hinside := inside_nestedRoot_iff.mpr (mem_twoSpellings.mpr (.inl rfl))
    refine greatest "u.a.x" (.int 1) _ _ hinside hfirst fun key' v' text' inside _ => ?_
    rcases mem_twoSpellings.mp (inside_nestedRoot_iff.mp inside) with he | he
    · obtain ⟨rfl, -⟩ := Prod.mk.inj he
      decide
    · obtain ⟨rfl, -⟩ := Prod.mk.inj he
      decide

end ScanJobs.Config
