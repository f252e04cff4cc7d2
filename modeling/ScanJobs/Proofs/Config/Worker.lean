import ScanJobs.Proofs.Config.Entries
import ScanJobs.Proofs.Config.Merging
import ScanJobs.Proofs.OptionType.Reread
import ScanJobs.Proofs.Schema.Fitting
import ScanJobs.Proofs.Schema.KeyPath
import Mathlib.Data.List.Nodup

/-! # What workers read

A worker rebuilds the configuration of its job from the keys below the prefix. After a merge into a
flat configuration without such keys these are the entries inside the root as texts
(`handedOver_of_writesFor`), and what is rebuilt from them holds under the same keys what the options
take the texts for (`HandedOver.get?_toApplication`). So a worker reads the submitter's value
serialized and validated, or the default where the submitter gave no value
(`worker_reads_what_was_submitted`). -/

namespace ScanJobs.Config

open Schema Text

/-- The entry has this text for this option: its key leads there, and this is the flat form of its
value. -/
def Copied (root : Node) (entry : String × Value) (o : OptionRef) (text : String) : Prop :=
  ∃ t : Target, root.parse entry.1 = .ok t ∧ t.option? = some o ∧ serialize o entry.2 = .ok text

theorem Copied.unique {root : Node} {entry : String × Value} {o o' : OptionRef}
    {text text' : String} (h : Copied root entry o text) (h' : Copied root entry o' text') :
    o' = o ∧ text' = text := by
  obtain ⟨t, ht, ho, htext⟩ := h
  obtain ⟨t', ht', ho', htext'⟩ := h'
  cases ht.symm.trans ht'
  cases ho.symm.trans ho'
  cases htext.symm.trans htext'
  exact ⟨rfl, rfl⟩

/-- Where umbrellas are apart, an entry is written below the prefix under its own key. -/
theorem writeFor_eq_ok_iff_copied {s : Schema} {root : Node} (hroot : s.Holds root)
    (hapart : root.element.UmbrellasApart) {above : String} {entry : String × Value}
    {write : String × String} :
    writeFor ⟨root, above⟩ entry = .ok write ↔
      ∃ o text, Copied root entry o text ∧ write = (above ++ "." ++ entry.1, text) := by
  rw [writeFor_eq_ok_iff]
  constructor
  · rintro ⟨t, o, path, text, ht, ho, hpath, htext, rfl⟩
    cases hpath.symm.trans (Node.pathFrom_of_parse hroot.kind_eq hapart ht)
    exact ⟨o, text, ⟨t, ht, ho, htext⟩, rfl⟩
  · rintro ⟨o, text, ⟨t, ht, ho, htext⟩, rfl⟩
    exact ⟨t, o, entry.1, text, ht, ho, Node.pathFrom_of_parse hroot.kind_eq hapart ht, htext, rfl⟩

/-- **What a worker finds**: below the prefix there are the entries as texts, and nothing else. -/
def HandedOver (w : View) (entries : List (String × Value)) (c : Flat) : Prop :=
  ∀ key t, Flat.isUnder w.above key = true → (c.stored? key = some t ↔
    ∃ entry ∈ entries, ∃ o text, Copied w.root entry o text ∧ key = w.above ++ "." ++ entry.1 ∧
      t = .written text)

/-- **A merge hands the entries over.** -/
theorem handedOver_of_writesFor {s : Schema} (hs : s.UmbrellasApart) {root : Node}
    (hroot : s.Holds root) {name : String} {keys : Keys}
    (hkeys : Keys.ofNamespace name = .ok keys) {a : Application}
    {entries : List (String × Value)} (hsub : a.subset root [] = .ok entries)
    {writes : List (String × String)} (h : writesFor ⟨root, keys.above⟩ a = .ok writes) {c : Flat}
    (hfree : ∀ key, Flat.isUnder keys.above key = true → c.stored? key = none) :
    HandedOver ⟨root, keys.above⟩ entries (c.putAll ((keys.root, root.name) :: writes)) := by
  obtain ⟨entries', hsub', hall, hwrites⟩ := exists_entry_of_writesFor h
  obtain rfl : entries' = entries := Except.ok.inj (hsub'.symm.trans hsub)
  have hapart := hroot.umbrellasApart hs
  simp only [writeFor_eq_ok_iff_copied hroot hapart] at hwrites
  obtain ⟨ha, -⟩ := Keys.solid_of_ofNamespace hkeys
  obtain ⟨-, hframe⟩ := stored?_of_writesFor hroot hkeys h c
  -- what is written at one key comes from one entry
  have huniq : ∀ key text text', (key, text) ∈ writes → (key, text') ∈ writes → text' = text := by
    intro key text text' hmem hmem'
    obtain ⟨entry, hentry, o, t, hcopied, he⟩ := (hwrites _).mp hmem
    obtain ⟨entry', hentry', o', t', hcopied', he'⟩ := (hwrites _).mp hmem'
    cases he
    rw [Prod.mk.injEq, String.append_right_inj] at he'
    obtain ⟨hkey, rfl⟩ := he'
    obtain rfl := Application.subset_unique hsub hentry' hentry hkey
    exact (hcopied.unique hcopied').2
  have hstored : ∀ key text, (key, text) ∈ writes →
      (c.putAll ((keys.root, root.name) :: writes)).stored? key = some (.written text) := by
    intro key text hmem
    rw [Flat.putAll_cons]
    exact Flat.stored?_putAll_of_mem
      (fun write hwrite => (solid_of_writesFor hroot ha h write hwrite).strip_eq) huniq hmem _
  intro key t hunder
  constructor
  · intro ht
    by_cases hmem : key ∈ writes.map Prod.fst
    · obtain ⟨⟨key', text⟩, hwrite, rfl⟩ := List.mem_map.mp hmem
      obtain ⟨entry, hentry, o, text', hcopied, he⟩ := (hwrites _).mp hwrite
      rw [Prod.mk.injEq] at he
      obtain ⟨hkey, rfl⟩ := he
      have htext := (hstored key' text hwrite).symm.trans ht
      exact ⟨entry, hentry, o, text, hcopied, hkey, (Option.some.inj htext).symm⟩
    · have hne : key ≠ keys.root := by
        rintro rfl
        rw [Keys.not_isUnder_of_ofNamespace hkeys (by simp [Keys.reserved])] at hunder
        cases hunder
      rw [hframe key hne hmem, hfree key hunder] at ht
      cases ht
  · rintro ⟨entry, hentry, o, text, hcopied, rfl, rfl⟩
    exact hstored _ _ ((hwrites _).mpr ⟨entry, hentry, o, text, hcopied, rfl⟩)

/-! ### Rebuilding -/

/-- Entries that may be put below a path again: their keys are distinct and stay as they are. -/
structure Replaceable (rootPath : String) (entries : List (String × Value)) : Prop where
  solid : ∀ entry ∈ entries, Solid (keyBelow rootPath entry.1)
  nodup : (entries.map fun e => keyBelow rootPath e.1).Nodup

/-- The entries inside a scope may be put below its path. -/
theorem replaceable_of_subset {given : List (Value × Value)} {a : Application}
    (ha : Application.ofEntries given = .ok a) {scope : Node} {rootPath : String}
    {entries : List (String × Value)} (hsub : a.subset scope [] = .ok entries)
    (hpath : scope.site.path [] = .ok rootPath) : Replaceable rootPath entries where
  solid _ hentry :=
    Application.solid_of_ofEntries ha ((Application.mem_subset_iff hsub hpath).mp hentry).1
  nodup := Application.nodup_subset hsub hpath

namespace View

variable {w : View} {c : Flat}

/-- What a view finds is stored below the prefix. -/
theorem mem_entries_iff {e : String × FlatText} :
    e ∈ w.entries c ↔
      c.stored? e.1 = some e.2 ∧ Flat.isUnder w.above e.1 = true ∧ e.1 ≠ w.above := by
  rw [entries, List.mem_filter, Table.sorted, sortByKey, List.mem_mergeSort,
    ← Table.get?_eq_some_iff, Bool.and_eq_true, bne_iff_ne]
  rfl

theorem nodup_entries : (w.entries c).Nodup := by
  have hnodup : (c.values.entries.map Prod.fst).Nodup := c.values.nodup
  exact ((List.mergeSort_perm ..).nodup_iff.mpr (List.Nodup.of_map _ hnodup)).filter _

theorem below_ne (above path : String) : above ++ "." ++ path ≠ above := by
  intro he
  have hlen := congrArg String.length he
  rw [String.length_append, String.length_append] at hlen
  have hdot : (".").length = 1 := rfl
  omega

end View

theorem HandedOver.mem_entries_iff {w : View} {entries : List (String × Value)} {c : Flat}
    (h : HandedOver w entries c) {e : String × FlatText} :
    e ∈ w.entries c ↔ ∃ entry ∈ entries, ∃ o text, Copied w.root entry o text ∧
      e = (w.above ++ "." ++ entry.1, .written text) := by
  obtain ⟨key, t⟩ := e
  rw [View.mem_entries_iff]
  constructor
  · rintro ⟨ht, hunder, -⟩
    obtain ⟨entry, hentry, o, text, hcopied, rfl, rfl⟩ := (h key t hunder).mp ht
    exact ⟨entry, hentry, o, text, hcopied, rfl⟩
  · rintro ⟨entry, hentry, o, text, hcopied, he⟩
    cases he
    have hunder := Flat.isUnder_below w.above entry.1
    exact ⟨(h _ _ hunder).mpr ⟨entry, hentry, o, text, hcopied, rfl, rfl⟩, hunder,
      View.below_ne w.above entry.1⟩

/-- An entry that is found is given back as what its option takes the text for. -/
theorem Copied.entryOf_eq {w : View} {entry : String × Value} {o : OptionRef} {text : String}
    (h : Copied w.root entry o text) (rootPath : String) :
    w.entryOf rootPath (w.above ++ "." ++ entry.1, .written text) =
      (validate o (.text text)).map fun v => (.text (keyBelow rootPath entry.1), v) := by
  obtain ⟨⟨⟨site, e⟩, names⟩, ht, ho, -⟩ := h
  cases e with
  | scope u d cs => cases ho
  | option d τ default =>
    cases ho
    unfold View.entryOf
    dsimp only
    rw [dropFirst_below, ht]
    rfl

theorem Application.get_eq (a : Application) {o : OptionRef} {names : List String} {key : String}
    (h : o.site.path names = .ok key) :
    a.get o names = match a.values.get? key with
      | some v => validate o v
      | none => match o.default with
        | some v => .ok v
        | none => .error (.config .noDefault) := by
  rw [Application.get, h]
  rfl

namespace HandedOver

variable {w : View} {entries : List (String × Value)} {c : Flat} {rootPath : String}

theorem toApplication_eq (hpath : w.root.site.path [] = .ok rootPath) :
    w.toApplication c =
      (w.entries c).mapM (w.entryOf rootPath) >>= Application.ofEntries := by
  rw [View.toApplication, hpath]
  rfl

/-- What the entries are given back as. -/
theorem exists_entries_of_mapM (h : HandedOver w entries c) {given : List (Value × Value)}
    (hm : (w.entries c).mapM (w.entryOf rootPath) = .ok given) :
    ∃ es : List (String × Value), given = asMapping es ∧
      ∀ key v, (key, v) ∈ es ↔ ∃ entry ∈ entries, ∃ o text, Copied w.root entry o text ∧
        key = keyBelow rootPath entry.1 ∧ validate o (.text text) = .ok v := by
  have hmem : ∀ p, p ∈ given ↔ ∃ entry ∈ entries, ∃ o text, Copied w.root entry o text ∧
      ∃ v, validate o (.text text) = .ok v ∧ (.text (keyBelow rootPath entry.1), v) = p := by
    intro p
    rw [mem_of_mapM hm]
    constructor
    · rintro ⟨e, he, hp⟩
      obtain ⟨entry, hentry, o, text, hcopied, rfl⟩ := h.mem_entries_iff.mp he
      rw [hcopied.entryOf_eq, map_eq_ok_iff] at hp
      exact ⟨entry, hentry, o, text, hcopied, hp⟩
    · rintro ⟨entry, hentry, o, text, hcopied, hp⟩
      refine ⟨_, h.mem_entries_iff.mpr ⟨entry, hentry, o, text, hcopied, rfl⟩, ?_⟩
      rw [hcopied.entryOf_eq, map_eq_ok_iff]
      exact hp
  refine ⟨given.map fun p => (p.1.text?.getD "", p.2), ?_, fun key v => ?_⟩
  · rw [asMapping, List.map_map]
    refine (List.map_id' given).symm.trans (List.map_congr_left fun p hp => ?_)
    obtain ⟨entry, -, o, text, -, v, -, rfl⟩ := (hmem p).mp hp
    rfl
  · rw [List.mem_map]
    constructor
    · rintro ⟨p, hp, he⟩
      obtain ⟨entry, hentry, o, text, hcopied, v', hv', rfl⟩ := (hmem p).mp hp
      cases he
      exact ⟨entry, hentry, o, text, hcopied, rfl, hv'⟩
    · rintro ⟨entry, hentry, o, text, hcopied, rfl, hv⟩
      exact ⟨_, (hmem _).mpr ⟨entry, hentry, o, text, hcopied, v, hv, rfl⟩, rfl⟩

/-- If all texts are taken, there is a configuration of what they are taken for. -/
theorem toApplication_of_mapM (h : HandedOver w entries c)
    (hpath : w.root.site.path [] = .ok rootPath)
    (hr : Replaceable rootPath entries) {given : List (Value × Value)}
    (hm : (w.entries c).mapM (w.entryOf rootPath) = .ok given) :
    ∃ es : List (String × Value), w.toApplication c = .ok ⟨Table.ofList es⟩ ∧
      ∀ key v, (key, v) ∈ es ↔ ∃ entry ∈ entries, ∃ o text, Copied w.root entry o text ∧
        key = keyBelow rootPath entry.1 ∧ validate o (.text text) = .ok v := by
  obtain ⟨es, rfl, hes⟩ := h.exists_entries_of_mapM hm
  refine ⟨es, ?_, hes⟩
  have hflat : flatten (asMapping es) "" = .ok (.ofList es) := by
    refine flatten_asMapping fun e he => ?_
    obtain ⟨entry, hentry, o, text, -, hkey, hv⟩ := (hes e.1 e.2).mp he
    exact ⟨hkey ▸ hr.solid entry hentry, ne_map_of_validate_text hv⟩
  rw [toApplication_eq hpath, hm]
  change Application.ofEntries (asMapping es) = _
  rw [Application.ofEntries, hflat]
  rfl

/-- **Rebuilding fails** exactly if an option does not take its own text. -/
theorem toApplication_error_iff (h : HandedOver w entries c)
    (hpath : w.root.site.path [] = .ok rootPath)
    (hr : Replaceable rootPath entries) :
    (∃ f, w.toApplication c = .error f) ↔ ∃ entry ∈ entries, ∃ o text,
      Copied w.root entry o text ∧ ∃ f, validate o (.text text) = .error f := by
  have hmap : (∃ f, w.toApplication c = .error f) ↔
      ∃ f, (w.entries c).mapM (w.entryOf rootPath) = .error f := by
    cases hm : (w.entries c).mapM (w.entryOf rootPath) with
    | error f =>
      rw [toApplication_eq hpath, hm]
      exact ⟨fun _ => ⟨f, rfl⟩, fun _ => ⟨f, rfl⟩⟩
    | ok given =>
      obtain ⟨es, hes, -⟩ := h.toApplication_of_mapM hpath hr hm
      rw [hes]
      exact ⟨fun ⟨_, he⟩ => (by cases he), fun ⟨_, he⟩ => (by cases he)⟩
  rw [hmap, mapM_error_iff]
  constructor
  · rintro ⟨e, he, f, hf⟩
    obtain ⟨entry, hentry, o, text, hcopied, rfl⟩ := h.mem_entries_iff.mp he
    rw [hcopied.entryOf_eq] at hf
    cases hv : validate o (.text text) with
    | error f' => exact ⟨entry, hentry, o, text, hcopied, f', hv⟩
    | ok v => rw [hv] at hf; cases hf
  · rintro ⟨entry, hentry, o, text, hcopied, f, hf⟩
    refine ⟨_, h.mem_entries_iff.mpr ⟨entry, hentry, o, text, hcopied, rfl⟩, f, ?_⟩
    rw [hcopied.entryOf_eq, hf]
    rfl

/-- What is rebuilt is rebuilt from texts that are taken. -/
theorem exists_validate (h : HandedOver w entries c)
    (hpath : w.root.site.path [] = .ok rootPath)
    (hr : Replaceable rootPath entries) {b : Application}
    (hb : w.toApplication c = .ok b) {entry : String × Value} (hentry : entry ∈ entries)
    {o : OptionRef} {text : String} (hcopied : Copied w.root entry o text) :
    ∃ v, validate o (.text text) = .ok v := by
  cases hv : validate o (.text text) with
  | ok v => exact ⟨v, rfl⟩
  | error f =>
    obtain ⟨f', hf'⟩ := (h.toApplication_error_iff hpath hr).mpr
      ⟨entry, hentry, o, text, hcopied, f, hv⟩
    cases hf'.symm.trans hb

/-- **What is rebuilt**: under the key of each entry what its option takes the text for. -/
theorem get?_toApplication (h : HandedOver w entries c)
    (hpath : w.root.site.path [] = .ok rootPath)
    (hr : Replaceable rootPath entries)
    {b : Application} (hb : w.toApplication c = .ok b) {key : String} {v : Value} :
    b.values.get? key = some v ↔ ∃ entry ∈ entries, ∃ o text, Copied w.root entry o text ∧
      key = keyBelow rootPath entry.1 ∧ validate o (.text text) = .ok v := by
  obtain ⟨given, hm⟩ : ∃ given, (w.entries c).mapM (w.entryOf rootPath) = .ok given := by
    rw [toApplication_eq hpath, bind_eq_ok_iff] at hb
    obtain ⟨given, hm, -⟩ := hb
    exact ⟨given, hm⟩
  obtain ⟨es, hes, hmem⟩ := h.toApplication_of_mapM hpath hr hm
  obtain rfl := Except.ok.inj (hes.symm.trans hb)
  rw [← hmem]
  refine Table.get?_ofList_eq_some_iff fun key v v' hv hv' => ?_
  obtain ⟨entry, hentry, o, text, hcopied, rfl, hval⟩ := (hmem key v).mp hv
  obtain ⟨entry', hentry', o', text', hcopied', hkey, hval'⟩ := (hmem _ v').mp hv'
  obtain rfl := List.inj_on_of_nodup_map hr.nodup hentry hentry' hkey
  obtain ⟨rfl, rfl⟩ := hcopied.unique hcopied'
  cases hval.symm.trans hval'
  rfl

/-- The keys that are rebuilt are those of the entries. -/
theorem keys_toApplication (h : HandedOver w entries c)
    (hpath : w.root.site.path [] = .ok rootPath)
    (hr : Replaceable rootPath entries)
    (hall : ∀ entry ∈ entries, ∃ o text, Copied w.root entry o text)
    {b : Application} (hb : w.toApplication c = .ok b) :
    b.keys = Text.sort (entries.map fun e => keyBelow rootPath e.1) := by
  refine Text.sort_eq_of_perm ?_
  refine (List.perm_ext_iff_of_nodup b.values.nodup hr.nodup).mpr fun key => ?_
  change key ∈ b.values.keys ↔ _
  rw [Table.mem_keys_iff, List.mem_map]
  simp only [h.get?_toApplication hpath hr hb]
  constructor
  · rintro ⟨v, entry, hentry, o, text, -, rfl, -⟩
    exact ⟨entry, hentry, rfl⟩
  · rintro ⟨entry, hentry, rfl⟩
    obtain ⟨o, text, hcopied⟩ := hall entry hentry
    obtain ⟨v, hv⟩ := h.exists_validate hpath hr hb hentry hcopied
    exact ⟨v, entry, hentry, o, text, hcopied, rfl, hv⟩

/-- An option with an entry has the value that it takes the text of the entry for. -/
theorem get_of_copied (h : HandedOver w entries c)
    (hpath : w.root.site.path [] = .ok rootPath) (hr : Replaceable rootPath entries)
    {b : Application} (hb : w.toApplication c = .ok b) {entry : String × Value}
    (hentry : entry ∈ entries) {o : OptionRef} {text : String}
    (hcopied : Copied w.root entry o text) {names : List String}
    (hkey : o.site.path names = .ok (keyBelow rootPath entry.1)) :
    b.get o names = validate o (.text text) := by
  obtain ⟨v, hv⟩ := h.exists_validate hpath hr hb hentry hcopied
  have hstored := (h.get?_toApplication hpath hr hb).mpr
    ⟨entry, hentry, o, text, hcopied, rfl, hv⟩
  rw [Application.get_eq b hkey, hstored, hv]
  exact validate_validate_text hv

/-- An option without an entry has its default. -/
theorem get_of_forall_ne (h : HandedOver w entries c)
    (hpath : w.root.site.path [] = .ok rootPath) (hr : Replaceable rootPath entries)
    {b : Application} (hb : w.toApplication c = .ok b) {o : OptionRef} {names : List String}
    {key : String} (hkey : o.site.path names = .ok key)
    (hno : ∀ entry ∈ entries, key ≠ keyBelow rootPath entry.1) {d : Value}
    (hd : o.default = some d) : b.get o names = .ok d := by
  have hstored : b.values.get? key = none := by
    cases hv : b.values.get? key with
    | none => rfl
    | some v =>
      obtain ⟨entry, hentry, -, -, -, hbelow, -⟩ := (h.get?_toApplication hpath hr hb).mp hv
      exact absurd hbelow (hno entry hentry)
  rw [Application.get_eq b hkey, hstored, hd]

end HandedOver

/-! ### Keys of options -/

/-- **An option is looked up below the path of the root** under a key that leads to it from there. -/
theorem exists_key_of_fits {s : Schema} (hs : s.UmbrellasApart) {n : Node} (h : s.Holds n)
    {rootPath : String} (hpath : n.site.path [] = .ok rootPath) {ls : List Link} {e : Element}
    (hl : Leads n.element ls e) {names : List String} (hf : Fits n.element ls names) (hne : ls ≠ []) :
    ∃ key, (n.site.along ls).path names = .ok (keyBelow rootPath key) ∧
      n.parse key = .ok ⟨⟨n.site.along ls, e⟩, names⟩ := by
  obtain ⟨steps, hreads, rfl, rfl, htop⟩ := hl.exists_reads hf
  have hsteps : steps ≠ [] := by
    rintro rfl
    exact hne rfl
  have hw : weaveFrom n.element.kind (Step.links steps) (Step.users steps) =
      (Step.texts steps, []) := hreads.weaveFrom_eq htop
  have hroot : n.site.path [] = .ok (join '.' (n.site.links.map fun l => l.name.text)) := by
    have hnil : weaveFrom n.element.kind [] [] = ([], []) := by cases n.element.kind <;> rfl
    have hall := h.weaveFrom_along hs (Fits.nil n.element [])
    rw [List.append_nil, hnil, List.append_nil] at hall
    rw [Site.path, Site.way, Site.components_eq_ok_iff.mpr hall]
    rfl
  have hkey : (n.site.along (Step.links steps)).path (Step.users steps) =
      .ok (join '.' ((n.site.links.map fun l => l.name.text) ++ Step.texts steps)) := by
    have hall := h.weaveFrom_along hs hf
    rw [hw] at hall
    rw [Site.path, Site.way]
    exact congrArg (Except.map _) (Site.components_eq_ok_iff.mpr hall)
  refine ⟨join '.' (Step.texts steps), ?_, Node.parse_join_texts hreads hsteps hf.proper⟩
  rw [hkey, Except.ok.inj (hpath.symm.trans hroot), keyBelow_join ?_ (by simpa [Step.texts])]
  intro hlinks
  obtain ⟨l, hl⟩ := List.exists_mem_of_ne_nil _ fun h => hlinks (congrArg _ h)
  exact ⟨l.name.text, List.mem_map_of_mem hl, l.name.solid.isEmpty_eq⟩

/-! ### What a worker reads -/

/-- **What a worker reads is what was submitted**, serialized and validated. -/
theorem worker_reads_what_was_submitted {s : Schema} (hs : s.UmbrellasApart) {root : Node}
    (hroot : s.Holds root) (hscope : root.element.isOption = false)
    {given : List (Value × Value)} {a : Application} (ha : Application.ofEntries given = .ok a)
    {name : String} {keys : Keys} (hkeys : Keys.ofNamespace name = .ok keys) {c : Flat}
    (hfree : ∀ key, Flat.isUnder keys.above key = true → c.stored? key = none)
    {view : Option View} {after : Given Flat}
    (hmerge : (merge (.this a) (.this root) keys).on (.this c) = (.ok view, after)) :
    ∃ c' w entries rootPath, after = .this c' ∧ View.create root keys.above = .ok w ∧
      a.subset root [] = .ok entries ∧ root.site.path [] = .ok rootPath ∧
      ((∃ f, w.toApplication c' = .error f) ↔ ∃ entry ∈ entries, ∃ o text,
        Copied root entry o text ∧ ∃ f, validate o (.text text) = .error f) ∧
      ∀ b, w.toApplication c' = .ok b →
        b.keys = Text.sort (entries.map fun e => keyBelow rootPath e.1) ∧
        ∀ ls e names o, Leads root.element ls e → Fits root.element ls names →
          Node.option? ⟨root.site.along ls, e⟩ = some o →
          ∃ key, o.site.path names = .ok key ∧
            (∀ raw, a.values.get? key = some raw → ∃ text, serialize o raw = .ok text ∧
              b.get o names = validate o (.text text)) ∧
            (a.values.get? key = none → ∀ d, o.default = some d → b.get o names = .ok d) := by
  obtain ⟨hsolid, hreserved⟩ := Keys.solid_of_ofNamespace hkeys
  have hrootKey : isBlank keys.root = false := (hreserved _ (by simp [Keys.reserved])).isBlank_eq
  rw [merge_on_this hsolid hrootKey] at hmerge
  obtain ⟨writes, hw⟩ : ∃ writes, writesFor ⟨root, keys.above⟩ a = .ok writes := by
    cases hw : writesFor ⟨root, keys.above⟩ a with
    | error f => rw [hw] at hmerge; cases hmerge
    | ok writes => exact ⟨writes, rfl⟩
  rw [hw] at hmerge
  obtain ⟨entries, hsub, hall, -⟩ := exists_entry_of_writesFor hw
  obtain ⟨rootPath, hpath⟩ := Site.exists_path_nil root.site
  have hover := handedOver_of_writesFor hs hroot hkeys hsub hw hfree
  have hr := replaceable_of_subset ha hsub hpath
  have hcopied : ∀ entry ∈ entries, ∃ o text, Copied root entry o text := by
    intro entry hentry
    obtain ⟨write, hwrite⟩ := hall entry hentry
    obtain ⟨o, text, hcopied, -⟩ :=
      (writeFor_eq_ok_iff_copied hroot (hroot.umbrellasApart hs)).mp hwrite
    exact ⟨o, text, hcopied⟩
  refine ⟨_, ⟨root, keys.above⟩, entries, rootPath, (congrArg Prod.snd hmerge).symm,
    View.create_eq hsolid root, hsub, hpath, hover.toApplication_error_iff hpath hr,
    fun b hb => ⟨hover.keys_toApplication hpath hr hcopied hb, fun ls e names o hl hf ho => ?_⟩⟩
  obtain ⟨hsite, d, he⟩ := Node.option?_eq_some_iff.mp ho
  have hne : ls ≠ [] := by
    rintro rfl
    cases hl
    rw [he] at hscope
    cases hscope
  obtain ⟨key, hkey, hparse⟩ := exists_key_of_fits hs hroot hpath hl hf hne
  rw [← show o.site = root.site.along ls from hsite] at hkey
  refine ⟨_, hkey, fun raw hraw => ?_, fun hnone d hd => ?_⟩
  · have hentry : (key, raw) ∈ entries := (Application.mem_subset_iff hsub hpath).mpr
      ⟨hraw, Application.isInside_of_parse hparse⟩
    obtain ⟨o', text, hcopy⟩ := hcopied _ hentry
    obtain ⟨t, ht, ho', htext⟩ := id hcopy
    -- the key leads to the option itself
    cases hparse.symm.trans ht
    cases ho.symm.trans ho'
    exact ⟨text, htext, hover.get_of_copied hpath hr hb hentry hcopy hkey⟩
  · refine hover.get_of_forall_ne hpath hr hb hkey (fun entry hentry hbelow => ?_) hd
    have hentry' := ((Application.mem_subset_iff hsub hpath).mp hentry).1
    rw [hbelow, hentry'] at hnone
    cases hnone

/-- The option below the umbrella. -/
def umbrellaOption : OptionRef :=
  ⟨umbrellaRoot.site.along [⟨optionName, .option⟩], .integer, some .none⟩

/-- Its value under a name for the umbrella. -/
def umbrellaEntries : Application := ⟨Table.ofList [("u.x", .int 5)]⟩

/-- An option below an umbrella is read with the name that the submitter gave the umbrella. -/
theorem worker_reads_below_umbrella :
    ∃ view c' b, (merge (.this umbrellaEntries) (.this umbrellaRoot) Keys.standard).on
        (.this Flat.empty) = (.ok view, .this c') ∧
      (View.mk umbrellaRoot Keys.standard.above).toApplication c' = .ok b ∧
      b.get umbrellaOption ["u"] = .ok (.int 5) := by
  have hkeys : Keys.ofNamespace "scanrunner" = .ok Keys.standard := by rfl
  have ha : Application.ofEntries [(.text "u.x", .int 5)] = .ok umbrellaEntries := by rfl
  have hsub : umbrellaEntries.subset umbrellaRoot [] = .ok [("u.x", .int 5)] := by rfl
  have hwrites : writesFor ⟨umbrellaRoot, Keys.standard.above⟩ umbrellaEntries =
      .ok [(Keys.standard.above ++ ".u.x", "5")] := by
    rw [writesFor, hsub]
    change (sortByKey [("u.x", Value.int 5)]).mapM _ = _
    rw [sortByKey, List.mergeSort_singleton]
    rfl
  have hmerge := merge_on_this (Keys.solid_of_ofNamespace hkeys).1 (by decide) umbrellaEntries
    umbrellaRoot Flat.empty
  rw [hwrites] at hmerge
  obtain ⟨c', w, entries, rootPath, hafter, hw, hsub', -, hfails, hreads⟩ :=
    worker_reads_what_was_submitted umbrellaSchema_apart umbrellaSchema_holds rfl ha hkeys
      (fun _ _ => rfl) hmerge
  obtain rfl : w = ⟨umbrellaRoot, Keys.standard.above⟩ := Except.ok.inj (hw.symm.trans rfl)
  obtain rfl := Except.ok.inj (hsub'.symm.trans hsub)
  have htaken : validate umbrellaOption (.text "5") = .ok (.int 5) := by rfl
  have hcopied : Copied umbrellaRoot ("u.x", .int 5) umbrellaOption "5" :=
    ⟨⟨⟨umbrellaOption.site, .option .none .integer (some .none)⟩, ["u"]⟩, rfl, rfl, rfl⟩
  cases hb : (View.mk umbrellaRoot Keys.standard.above).toApplication c' with
  | error f =>
    obtain ⟨entry, hentry, o, text, hcopied', f', hf'⟩ := hfails.mp ⟨f, hb⟩
    obtain rfl := List.mem_singleton.mp hentry
    obtain ⟨rfl, rfl⟩ := hcopied.unique hcopied'
    cases hf'.symm.trans htaken
  | ok b =>
    have hlinks : Leads umbrellaRoot.element
        [⟨optionName, .option⟩] (.option .none .integer (some .none)) :=
      @Leads.down _ (.option .none .integer (some .none)) _ _ _ rfl (.here _)
    have hfits : Fits umbrellaRoot.element
        [⟨optionName, .option⟩] ["u"] := by
      refine ⟨by decide, ?_, ?_⟩
      · simp only [List.mem_singleton, forall_eq]
        exact ⟨by decide, by decide⟩
      · rintro p hp
        obtain rfl := List.mem_singleton.mp hp
        rfl
    obtain ⟨key, hkey, hcopy, -⟩ := (hreads b hb).2 _ _ _ umbrellaOption hlinks hfits rfl
    obtain rfl : key = "u.x" := Except.ok.inj (hkey.symm.trans rfl)
    obtain ⟨text, htext, hget⟩ := hcopy (.int 5) rfl
    obtain rfl : text = "5" := Except.ok.inj (htext.symm.trans rfl)
    exact ⟨_, c', b, hmerge.trans (by rw [← hafter]), hb, hget.trans htaken⟩

end ScanJobs.Config
