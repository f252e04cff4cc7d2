import ScanJobs.Proofs.Config.Entries
import ScanJobs.Proofs.Config.Reserved
import ScanJobs.Proofs.Config.Writes
import ScanJobs.Proofs.Schema.Weaving

/-! # Merging is all or nothing

A merge that fails leaves the flat configuration as it was, whatever is given and for whatever reason
it fails (`merge_error`). It fails exactly if a configuration comes without a root or a root without a
configuration, or if some entry inside the root cannot be written (`Unwritable`). Else it changes the
key of the root and the keys of the entries below the prefix, and no other key
(`merge_all_or_nothing`). -/

namespace ScanJobs.Config

open Schema Text

/-! ### Writing -/

theorem write_on {key : String} (h : isBlank key = false) (text : String) (c : Flat) :
    (write key text).on (.this c) = (.ok (), .this (c.put key text)) := by
  have hset : c.set key text = .ok (c.put key text) := by
    rw [Flat.set, h]
    rfl
  rw [write, Act.on_tryChange]
  simp [hset, bind, Except.bind, pure, Except.pure]

theorem writeAll_on {es : List (String × String)} (h : ∀ e ∈ es, isBlank e.1 = false) (c : Flat) :
    (writeAll es).on (.this c) = (.ok (), .this (c.putAll es)) := by
  induction es generalizing c with
  | nil => rfl
  | cons e es ih =>
    have hfirst := write_on (h e (List.mem_cons_self ..)) e.2 c
    have hrest := ih (fun e' he' => h e' (List.mem_cons_of_mem _ he')) (c.put e.1 e.2)
    rw [Flat.putAll_cons, ← hrest]
    exact Act.on_bind_ok hfirst

theorem writeAll_ok {es : List (String × String)} (h : ∀ e ∈ es, isBlank e.1 = false) (hne : es ≠ [])
    {g g' : Given Flat} (hw : (writeAll es).on g = (.ok (), g')) :
    ∃ c, g = .this c ∧ g' = .this (c.putAll es) := by
  cases g with
  | this c =>
    rw [writeAll_on h] at hw
    cases hw
    exact ⟨c, rfl, rfl⟩
  | nothing =>
    cases es with
    | nil => exact absurd rfl hne
    | cons e es => cases hw
  | other x =>
    cases es with
    | nil => exact absurd rfl hne
    | cons e es => cases hw

/-- Nothing can be written where there is no flat configuration. -/
theorem writeAll_error {es : List (String × String)} (h : ∀ e ∈ es, isBlank e.1 = false)
    {g g' : Given Flat} {f : Failure} (hw : (writeAll es).on g = (.error f, g')) :
    g' = g ∧ ∀ c, g ≠ .this c := by
  cases g with
  | this c =>
    rw [writeAll_on h] at hw
    cases hw
  | nothing =>
    cases es with
    | nil => cases hw
    | cons e es => cases hw; exact ⟨rfl, by simp⟩
  | other x =>
    cases es with
    | nil => cases hw
    | cons e es => cases hw; exact ⟨rfl, by simp⟩

/-! ### What a merge does -/

theorem View.create_eq {above : String} (h : Solid above) (r : Node) :
    View.create r above = .ok ⟨r, above⟩ := by
  rw [View.create, View.properPrefix, h.isBlank_eq, h.strip_eq]
  rfl

/-- What is to be written comes from the entries inside the root. -/
theorem exists_entry_of_writesFor {w : View} {a : Application} {writes : List (String × String)}
    (h : writesFor w a = .ok writes) :
    ∃ entries, a.subset w.root [] = .ok entries ∧ (∀ entry ∈ entries, ∃ write,
      writeFor w entry = .ok write) ∧
      ∀ write, write ∈ writes ↔ ∃ entry ∈ entries, writeFor w entry = .ok write := by
  obtain ⟨entries, hsub, hwrites⟩ := bind_eq_ok_iff.mp h
  refine ⟨entries, hsub, fun entry hentry => ?_, fun write => ?_⟩
  · exact exists_of_mapM hwrites (List.mem_mergeSort.mpr hentry)
  · rw [mem_of_mapM hwrites]
    simp only [sortByKey, List.mem_mergeSort]

theorem isBlank_of_writesFor {w : View} {a : Application} {writes : List (String × String)}
    (hw : Solid w.above) (h : writesFor w a = .ok writes) :
    ∀ write ∈ writes, isBlank write.1 = false := by
  intro write hmem
  obtain ⟨entries, -, -, hwrites⟩ := exists_entry_of_writesFor h
  obtain ⟨entry, -, he⟩ := (hwrites write).mp hmem
  obtain ⟨-, -, path, text, -, -, -, -, rfl⟩ := writeFor_eq_ok_iff.mp he
  change isBlank (w.above ++ "." ++ path) = false
  rw [String.append_assoc]
  exact hw.isBlank_append _

/-- **What a merge does** with a configuration and its root: nothing before all that is to be written
is known. -/
theorem merge_on_this {keys : Keys} (ha : Solid keys.above) (hr : isBlank keys.root = false)
    (a : Application) (r : Node) (c : Flat) :
    (merge (.this a) (.this r) keys).on (.this c) =
      match writesFor ⟨r, keys.above⟩ a with
      | .ok writes =>
        (.ok (some ⟨r, keys.above⟩), .this (c.putAll ((keys.root, r.name) :: writes)))
      | .error f => (.error f, .this c) := by
  have hmerge : (merge (.this a) (.this r) keys).on (.this c) =
      (Act.ofExcept (writesFor ⟨r, keys.above⟩ a) >>= fun writes =>
        write keys.root r.name >>= fun _ =>
          writeAll writes >>= fun _ => pure (some (⟨r, keys.above⟩ : View))).on (.this c) := by
    simp only [merge, Act.on_bind, Act.on_ofExcept, Act.on_read, checkPairing, Given.isSome,
      Given.get_this, View.create_eq ha]
  rw [hmerge]
  cases hw : writesFor ⟨r, keys.above⟩ a with
  | error f => rw [Act.on_bind_error (Act.on_ofExcept _ _)]
  | ok writes =>
    rw [Act.on_bind_ok (Act.on_ofExcept _ _), Act.on_bind_ok (write_on hr r.name c),
      Act.on_bind_ok (writeAll_on (isBlank_of_writesFor ha hw) _)]
    rfl

theorem merge_on_this_ok {keys : Keys} (ha : Solid keys.above) (hr : isBlank keys.root = false)
    {a : Application} {r : Node} {writes : List (String × String)}
    (h : writesFor ⟨r, keys.above⟩ a = .ok writes) (c : Flat) :
    (merge (.this a) (.this r) keys).on (.this c) = (.ok (some ⟨r, keys.above⟩),
      .this (c.putAll ((keys.root, r.name) :: writes))) := by
  rw [merge_on_this ha hr, h]

theorem merge_on_this_error {keys : Keys} (ha : Solid keys.above) (hr : isBlank keys.root = false)
    {a : Application} {r : Node} {f : Failure} (h : writesFor ⟨r, keys.above⟩ a = .error f) (c : Flat) :
    (merge (.this a) (.this r) keys).on (.this c) = (.error f, .this c) := by
  rw [merge_on_this ha hr, h]

/-- **Whatever is given, a merge changes nothing**, or it has a configuration, its root and a flat
configuration, knows all that is to be written, and writes it. -/
theorem merge_cases {keys : Keys} (ha : Solid keys.above) (hr : isBlank keys.root = false)
    {app : Given Application} {root : Given Node} {g g' : Given Flat}
    {result : Except Failure (Option View)} (h : (merge app root keys).on g = (result, g')) :
    g' = g ∨ ∃ a r c writes, app = .this a ∧ root = .this r ∧ g = .this c ∧
      writesFor ⟨r, keys.above⟩ a = .ok writes ∧ result = .ok (some ⟨r, keys.above⟩) ∧
      g' = .this (c.putAll ((keys.root, r.name) :: writes)) := by
  cases app <;> cases root <;> cases g
  case this.this.this a r c =>
    rw [merge_on_this ha hr] at h
    cases hw : writesFor ⟨r, keys.above⟩ a with
    | error f => rw [hw] at h; cases h; exact .inl rfl
    | ok writes => rw [hw] at h; cases h; exact .inr ⟨a, r, c, writes, rfl, rfl, rfl, hw, rfl, rfl⟩
  case this.this.other a r x =>
    -- the first write already fails
    have hwrite : (write keys.root r.name).on (.other x) =
        (.error (x.failure "config_set"), .other x) := rfl
    cases hw : writesFor ⟨r, keys.above⟩ a with
    | error f =>
      simp [merge, Act.on_bind, checkPairing, Given.isSome, Given.get, View.create_eq ha, hw] at h
      exact .inl h.2.symm
    | ok writes =>
      simp [merge, Act.on_bind, checkPairing, Given.isSome, Given.get, View.create_eq ha, hw,
        hwrite] at h
      exact .inl h.2.symm
  -- in all other cases it does not come to a write
  all_goals
    simp only [merge, Act.on_bind, Act.on_ofExcept, Act.on_read, Act.on_throw, Act.on_pure,
      checkPairing, Given.isSome, Given.get, Prod.mk.injEq] at h
    exact .inl h.2.symm

/-- **A merge that fails changes nothing.** -/
theorem merge_error {keys : Keys} (ha : Solid keys.above) (hr : isBlank keys.root = false)
    {app : Given Application} {root : Given Node} {g g' : Given Flat} {f : Failure}
    (h : (merge app root keys).on g = (.error f, g')) : g' = g := by
  rcases merge_cases ha hr h with hsame | ⟨a, r, c, writes, -, -, -, -, hok, -⟩
  · exact hsame
  · cases hok

/-! ### When it fails, and what it changes -/

/-- A scope has entries, maybe none. -/
theorem Application.exists_subset {scope : Node} (h : scope.element.isOption = false)
    (a : Application) : ∃ entries, a.subset scope [] = .ok entries := by
  obtain ⟨path, hpath⟩ := Site.exists_path_nil scope.site
  exact a.exists_subset_of_path h hpath

/-- All that is to be written is known exactly if every entry can be written. -/
theorem writesFor_error_iff {s : Schema} {r : Node} (hr : s.Holds r)
    (hscope : r.element.isOption = false) {above : String} {a : Application} :
    (∃ f, writesFor ⟨r, above⟩ a = .error f) ↔
      ∃ entries, a.subset r [] = .ok entries ∧ ∃ entry ∈ entries, Unwritable r entry := by
  obtain ⟨entries, hsub⟩ := a.exists_subset hscope
  have hall : writesFor ⟨r, above⟩ a = (Text.sortByKey entries).mapM (writeFor ⟨r, above⟩) := by
    rw [writesFor, hsub]
    rfl
  rw [hall, mapM_error_iff]
  simp only [writeFor_error_iff hr]
  constructor
  · rintro ⟨entry, hentry, hun⟩
    exact ⟨entries, hsub, entry, List.mem_mergeSort.mp hentry, hun⟩
  · rintro ⟨entries', hsub', entry, hentry, hun⟩
    cases hsub.symm.trans hsub'
    exact ⟨entry, List.mem_mergeSort.mpr hentry, hun⟩

theorem isUnder_of_writesFor {w : View} {a : Application} {writes : List (String × String)}
    (h : writesFor w a = .ok writes) : ∀ write ∈ writes, Flat.isUnder w.above write.1 = true := by
  intro write hmem
  obtain ⟨entries, -, -, hwrites⟩ := exists_entry_of_writesFor h
  obtain ⟨entry, -, he⟩ := (hwrites write).mp hmem
  obtain ⟨-, -, path, text, -, -, -, -, rfl⟩ := writeFor_eq_ok_iff.mp he
  exact Flat.isUnder_below w.above path

theorem not_mem_of_reserved {name : String} {keys : Keys} (hkeys : Keys.ofNamespace name = .ok keys)
    {r : Node} {a : Application} {writes : List (String × String)}
    (h : writesFor ⟨r, keys.above⟩ a = .ok writes) {key : String} (hkey : key ∈ keys.reserved) :
    key ∉ writes.map Prod.fst := by
  intro hmem
  obtain ⟨write, hwrite, rfl⟩ := List.mem_map.mp hmem
  have hin := isUnder_of_writesFor h write hwrite
  rw [Keys.not_isUnder_of_ofNamespace hkeys hkey] at hin
  cases hin

theorem solid_of_writesFor {s : Schema} {r : Node} (hr : s.Holds r) {above : String}
    (ha : Solid above) {a : Application} {writes : List (String × String)}
    (h : writesFor ⟨r, above⟩ a = .ok writes) : ∀ write ∈ writes, Solid write.1 := by
  intro write hwrite
  obtain ⟨entries, -, -, hwrites⟩ := exists_entry_of_writesFor h
  obtain ⟨entry, -, he⟩ := (hwrites write).mp hwrite
  exact solid_of_writeFor hr ha he

/-- **What is stored after a merge**: under the key of the root its name, and at every key that is
neither this nor that of an entry what was there before. -/
theorem stored?_of_writesFor {s : Schema} {r : Node} (hr : s.Holds r) {name : String}
    {keys : Keys} (hkeys : Keys.ofNamespace name = .ok keys) {a : Application}
    {writes : List (String × String)} (h : writesFor ⟨r, keys.above⟩ a = .ok writes) (c : Flat) :
    (c.putAll ((keys.root, r.name) :: writes)).stored? keys.root = some (.written r.name) ∧
      ∀ key, key ≠ keys.root → key ∉ writes.map Prod.fst →
        (c.putAll ((keys.root, r.name) :: writes)).stored? key = c.stored? key := by
  obtain ⟨ha, hreserved⟩ := Keys.solid_of_ofNamespace hkeys
  have hmem : keys.root ∈ keys.reserved := by simp [Keys.reserved]
  have hstrip : ∀ write ∈ writes, strip write.1 = write.1 :=
    fun write hwrite => (solid_of_writesFor hr ha h write hwrite).strip_eq
  constructor
  · rw [Flat.putAll_cons, Flat.stored?_putAll, Flat.stored?_put,
      if_pos (hreserved _ hmem).strip_eq]
    intro write hwrite he
    rw [hstrip write hwrite] at he
    exact not_mem_of_reserved hkeys h hmem (he ▸ List.mem_map_of_mem hwrite)
  · intro key hne hnot
    refine Flat.stored?_putAll (fun write hwrite he => ?_) c
    rcases List.mem_cons.mp hwrite with rfl | hwrite
    · exact hne (he.symm.trans (hreserved _ hmem).strip_eq)
    · rw [hstrip write hwrite] at he
      exact hnot (he ▸ List.mem_map_of_mem hwrite)

/-- A key stays as it is if it is neither that of the root nor the path of an entry below the prefix. -/
theorem stored?_of_forall_path_ne {s : Schema} {r : Node} (hr : s.Holds r) {name : String}
    {keys : Keys} (hkeys : Keys.ofNamespace name = .ok keys) {a : Application}
    {writes : List (String × String)} (h : writesFor ⟨r, keys.above⟩ a = .ok writes)
    {entries : List (String × Value)} (hsub : a.subset r [] = .ok entries) (c : Flat) {key : String}
    (hne : key ≠ keys.root)
    (hnot : ∀ entry ∈ entries, ∀ t path, r.parse entry.1 = .ok t →
      t.site.pathFrom r.site t.names = .ok path → key ≠ keys.above ++ "." ++ path) :
    (c.putAll ((keys.root, r.name) :: writes)).stored? key = c.stored? key := by
  obtain ⟨entries', hsub', -, hwrites⟩ := exists_entry_of_writesFor h
  obtain rfl : entries' = entries := Except.ok.inj (hsub'.symm.trans hsub)
  refine (stored?_of_writesFor hr hkeys h c).2 key hne fun hmem => ?_
  obtain ⟨write, hwrite, rfl⟩ := List.mem_map.mp hmem
  obtain ⟨entry, hentry, he⟩ := (hwrites write).mp hwrite
  obtain ⟨t, o, path, text, hp, -, hpath, -, rfl⟩ := writeFor_eq_ok_iff.mp he
  exact hnot entry hentry t path hp hpath rfl

/-- The keys of the job's class stay as they are. -/
theorem stored?_of_reserved {s : Schema} {r : Node} (hr : s.Holds r) {name : String}
    {keys : Keys} (hkeys : Keys.ofNamespace name = .ok keys) {a : Application}
    {writes : List (String × String)} (h : writesFor ⟨r, keys.above⟩ a = .ok writes) (c : Flat)
    {key : String} (hkey : key ∈ keys.reserved) (hne : key ≠ keys.root) :
    (c.putAll ((keys.root, r.name) :: writes)).stored? key = c.stored? key :=
  (stored?_of_writesFor hr hkeys h c).2 key hne (not_mem_of_reserved hkeys h hkey)

/-- **A merge writes all or nothing, and only its own keys.** -/
theorem merge_all_or_nothing {s : Schema} {name : String} {keys : Keys}
    (hkeys : Keys.ofNamespace name = .ok keys) {app : Option Application} {root : Option Node}
    (hroot : ∀ r ∈ root, s.Holds r ∧ r.element.isOption = false) {c : Flat}
    {result : Except Failure (Option View)} {after : Given Flat}
    (h : (merge (.ofOption app) (.ofOption root) keys).on (.this c) = (result, after)) :
    ((∃ f, result = .error f) ↔ app.isSome ≠ root.isSome ∨
      ∃ a r entries, app = some a ∧ root = some r ∧ a.subset r [] = .ok entries ∧
        ∃ entry ∈ entries, Unwritable r entry) ∧
    (∀ f, result = .error f → after = .this c) ∧
    (∀ v, result = .ok v → app = none → root = none → after = .this c) ∧
    (∀ v, result = .ok v → ∀ a r, app = some a → root = some r →
      ∃ entries c', a.subset r [] = .ok entries ∧ after = .this c' ∧
        c'.get? keys.root = some r.name ∧
        (∀ key, key ≠ keys.root →
          (∀ entry ∈ entries, ∀ t path, r.parse entry.1 = .ok t →
            t.site.pathFrom r.site t.names = .ok path → key ≠ keys.above ++ "." ++ path) →
          c'.stored? key = c.stored? key) ∧
        c'.stored? keys.jobClass = c.stored? keys.jobClass ∧
        c'.stored? keys.jobModule = c.stored? keys.jobModule) := by
  obtain ⟨ha, hreserved⟩ := Keys.solid_of_ofNamespace hkeys
  have hr : isBlank keys.root = false := (hreserved _ (by simp [Keys.reserved])).isBlank_eq
  have hkept : ∀ f, result = .error f → after = .this c := by
    rintro f rfl
    exact merge_error ha hr h
  cases app with
  | none =>
    cases root with
    | none =>
      obtain ⟨rfl, rfl⟩ : result = .ok none ∧ after = .this c := by cases h; exact ⟨rfl, rfl⟩
      exact ⟨by simp, hkept, by simp, by simp⟩
    | some r =>
      obtain ⟨f, rfl⟩ : ∃ f, result = .error f := by cases h; exact ⟨_, rfl⟩
      exact ⟨by simp, hkept, by simp, by simp⟩
  | some a =>
    cases root with
    | none =>
      obtain ⟨f, rfl⟩ : ∃ f, result = .error f := by cases h; exact ⟨_, rfl⟩
      exact ⟨by simp, hkept, by simp, by simp⟩
    | some r =>
      obtain ⟨hheld, hscope⟩ := hroot r rfl
      change (merge (.this a) (.this r) keys).on (.this c) = _ at h
      rw [merge_on_this ha hr] at h
      cases hw : writesFor ⟨r, keys.above⟩ a with
      | error f =>
        obtain ⟨rfl, rfl⟩ : result = .error f ∧ after = .this c := by
          rw [hw] at h
          cases h
          exact ⟨rfl, rfl⟩
        have hun := (writesFor_error_iff hheld hscope).mp ⟨f, hw⟩
        exact ⟨by simpa using hun, hkept, by simp, by simp⟩
      | ok writes =>
        obtain ⟨rfl, rfl⟩ : result = .ok (some ⟨r, keys.above⟩) ∧
            after = .this (c.putAll ((keys.root, r.name) :: writes)) := by
          rw [hw] at h
          cases h
          exact ⟨rfl, rfl⟩
        have hfine : ¬ ∃ f, writesFor ⟨r, keys.above⟩ a = .error f := by
          rintro ⟨f, hf⟩
          cases hw.symm.trans hf
        rw [writesFor_error_iff hheld hscope] at hfine
        refine ⟨by simpa using hfine, hkept, by simp, ?_⟩
        rintro - - _ _ ⟨⟩ ⟨⟩
        obtain ⟨entries, hsub, -, -⟩ := exists_entry_of_writesFor hw
        have hnodup := Keys.nodup_of_ofNamespace hkeys
        simp only [Keys.reserved, List.nodup_cons, List.mem_cons, List.not_mem_nil, or_false,
          not_or] at hnodup
        refine ⟨entries, _, hsub, rfl, ?_, fun key hne hnot => ?_, ?_, ?_⟩
        · rw [Flat.get?, (stored?_of_writesFor hheld hkeys hw c).1]
          rfl
        · exact stored?_of_forall_path_ne hheld hkeys hw hsub c hne hnot
        · exact stored?_of_reserved hheld hkeys hw c (by simp [Keys.reserved]) hnodup.1.2
        · exact stored?_of_reserved hheld hkeys hw c (by simp [Keys.reserved]) hnodup.2.1

/-- Entries below nested umbrellas, the last of which leads nowhere. -/
def strayEntries : Application := ⟨Table.ofList [("a.x", .int 1), ("a.u.v", .int 2)]⟩

/-- A key that leads nowhere makes the merge fail, and nothing is written. -/
theorem merge_of_stray_key :
    ∃ f, (merge (.ofOption (some strayEntries)) (.ofOption (some nestedRoot)) Keys.standard).on
      (.this Flat.empty) = (.error f, .this Flat.empty) := by
  have hkeys : Keys.ofNamespace "scanrunner" = .ok Keys.standard := by rfl
  have hroot : ∀ r ∈ some nestedRoot, nestedSchema.Holds r ∧ r.element.isOption = false := by
    rintro - ⟨⟩
    exact ⟨nestedSchema_holds, rfl⟩
  have hsub : strayEntries.subset nestedRoot [] = .ok [("a.x", .int 1), ("a.u.v", .int 2)] := by
    rfl
  obtain ⟨result, after, hrun⟩ : ∃ result after, (merge (.ofOption (some strayEntries))
      (.ofOption (some nestedRoot)) Keys.standard).on (.this Flat.empty) = (result, after) :=
    ⟨_, _, rfl⟩
  obtain ⟨hfails, hkept, -⟩ := merge_all_or_nothing hkeys hroot hrun
  obtain ⟨f, rfl⟩ := hfails.mpr (.inr ⟨strayEntries, nestedRoot, _, rfl, rfl, hsub,
    ("a.u.v", .int 2), by simp, .stray rfl⟩)
  exact ⟨f, by rw [hrun, hkept f rfl]⟩

end ScanJobs.Config
