import ScanJobs.Proofs.Config.Cells
import ScanJobs.Proofs.Config.Worker
import ScanJobs.Proofs.OptionType.Restoring

/-! # What a view writes and a worker finds

A view writes an option under its path with whatever names it is given; a worker reads that path back as
a key. The worker rebuilds a configuration exactly if the path leads to an option that takes the text
(`toApplication_put_eq_ok_iff`), and it finds the value under the same names only if the path is trimmed,
for the key of a configuration is. Names that fit the umbrellas are safe, the first of them trimmed; a
blank one never is (`written_is_found_iff`). -/

namespace ScanJobs.Config

open Schema Text

/-! ### The path of an option -/

theorem Site.path_along_of_root {root : Site} (h : root.links = []) (ls : List Link)
    (names : List String) : (root.along ls).path names = (root.along ls).pathFrom root names := by
  have hlinks : (root.along ls).links = ls := by simp [Site.along, h]
  have hlast : root.last = root.root := by simp [Site.last, h]
  rw [Site.pathFrom_along, hlast, Site.path, Site.way, hlinks]
  rfl

/-- The components of the way to an option end with the name of the option. -/
theorem exists_getLast?_of_leads {e e' : Element} {ls : List Link} (hl : Leads e ls e')
    (hscope : e.isOption = false) (hoption : e'.kind = .option) (kind : Kind) (names : List String) :
    ∃ name : Name, (weaveFrom kind ls names).1.getLast? = some name.text := by
  have hlast := List.getLast?_eq_some_getLast (hl.ne_nil hscope hoption)
  have hkind := hl.kind_eq
  rw [hlast, hoption] at hkind
  have hne : (ls.getLast (hl.ne_nil hscope hoption)).kind ≠ .umbrella := by
    rintro h
    cases hkind.trans h
  exact ⟨_, weaveFrom_getLast? kind names hlast hne⟩

/-- What is written under one key alone is all that is found below the prefix. -/
theorem View.entries_put {w : View} {c : Flat} {path : String}
    (hfree : ∀ key, Flat.isUnder w.above key = true → c.stored? key = none)
    (hsolid : Solid (w.above ++ "." ++ path)) (text : String) :
    w.entries (c.put (w.above ++ "." ++ path) text) = [(w.above ++ "." ++ path, .written text)] := by
  have hmem : ∀ e, e ∈ w.entries (c.put (w.above ++ "." ++ path) text) ↔
      e ∈ [(w.above ++ "." ++ path, FlatText.written text)] := by
    rintro ⟨key, t⟩
    rw [View.mem_entries_iff, Flat.stored?_put, hsolid.strip_eq, List.mem_singleton]
    constructor
    · rintro ⟨hstored, hunder, -⟩
      split at hstored
      · next hkey => exact Prod.ext hkey.symm (Option.some.inj hstored).symm
      · cases (hfree key hunder).symm.trans hstored
    · intro he
      obtain ⟨rfl, rfl⟩ := Prod.mk.inj he
      exact ⟨if_pos rfl, Flat.isUnder_below .., View.below_ne w.above path⟩
  refine List.perm_singleton.mp ((List.perm_ext_iff_of_nodup ?_ (by simp)).mpr hmem)
  exact View.nodup_entries

/-! ### Rebuilding from one key -/

/-- **The key is read as a value**: it leads to an option, which takes the text for the value. -/
def ReadAs (n : Node) (key text : String) (v : Value) : Prop :=
  ∃ t o, n.parse key = .ok t ∧ t.option? = some o ∧ validate o (.text text) = .ok v

theorem View.entryOf_eq_ok_iff {w : View} {path text : String} {p : Value × Value} :
    w.entryOf "" (w.above ++ "." ++ path, .written text) = .ok p ↔
      ∃ v, ReadAs w.root path text v ∧ p = (.text path, v) := by
  rw [View.entryOf, bind_eq_ok_iff]
  simp only [mapError_eq_ok_iff, dropFirst_below]
  constructor
  · rintro ⟨t, ht, h⟩
    cases ho : t.option? with
    | none => rw [ho] at h; cases h
    | some o =>
      rw [ho] at h
      obtain ⟨v, hv, h⟩ := bind_eq_ok_iff.mp h
      cases h
      exact ⟨v, ⟨t, o, ht, ho, hv⟩, rfl⟩
  · rintro ⟨v, ⟨t, o, ht, ho, hv⟩, rfl⟩
    refine ⟨t, ht, ?_⟩
    rw [ho]
    exact bind_eq_ok_iff.mpr ⟨v, hv, rfl⟩

/-- A configuration of one value has it under the trimmed key. -/
theorem ofEntries_single {key : String} (hkey : isBlank key = false) {v : Value}
    (hv : ∀ fs, v ≠ .map fs) :
    Application.ofEntries [(.text key, v)] = .ok ⟨.ofList [(strip key, v)]⟩ := by
  have hproper : properKey (.text key) = .ok (strip key) := by simp [properKey, Value.text?, hkey]
  have hflat : flatten [(.text key, v)] "" = .ok (.ofList [(strip key, v)]) := by
    rw [flatten, flattenInto, hproper]
    change (flattenAt Table.empty (strip key) v >>= fun t => .ok t) = _
    rw [flattenAt_of_ne_map hv]
    rfl
  rw [Application.ofEntries, hflat]
  rfl

/-- **What is rebuilt from one key**: what it is read as. -/
theorem toApplication_put_eq_ok_iff {w : View} (hroot : w.root.site.links = []) {c : Flat} {path : String}
    (hfree : ∀ key, Flat.isUnder w.above key = true → c.stored? key = none)
    (hsolid : Solid (w.above ++ "." ++ path)) (hpath : isBlank path = false) {text : String}
    {b : Application} :
    w.toApplication (c.put (w.above ++ "." ++ path) text) = .ok b ↔
      ∃ v, ReadAs w.root path text v ∧ b = ⟨.ofList [(strip path, v)]⟩ := by
  have hrootPath : w.root.site.path [] = .ok "" := by
    rw [Site.path, Site.way, hroot]
    cases w.root.site.root.kind <;> rfl
  have hmap : ∀ given, ([(w.above ++ "." ++ path, FlatText.written text)].mapM (w.entryOf "") = .ok given ↔
      ∃ v, ReadAs w.root path text v ∧ given = [(.text path, v)]) := by
    intro given
    rw [mapM_eq_ok_iff, List.map_singleton, eq_comm, List.map_eq_singleton_iff]
    constructor
    · rintro ⟨p, rfl, hp⟩
      obtain ⟨v, hv, rfl⟩ := View.entryOf_eq_ok_iff.mp hp.symm
      exact ⟨v, hv, rfl⟩
    · rintro ⟨v, hv, rfl⟩
      exact ⟨_, rfl, (View.entryOf_eq_ok_iff.mpr ⟨v, hv, rfl⟩).symm⟩
  rw [HandedOver.toApplication_eq hrootPath, View.entries_put hfree hsolid, bind_eq_ok_iff]
  simp only [hmap]
  constructor
  · rintro ⟨_, ⟨v, hv, rfl⟩, hb⟩
    obtain ⟨t, o, -, -, hval⟩ := id hv
    rw [ofEntries_single hpath (ne_map_of_validate_text hval)] at hb
    exact ⟨v, hv, (Except.ok.inj hb).symm⟩
  · rintro ⟨v, hv, rfl⟩
    obtain ⟨t, o, -, -, hval⟩ := id hv
    exact ⟨_, ⟨v, hv, rfl⟩, ofEntries_single hpath (ne_map_of_validate_text hval)⟩

theorem get_single {o : OptionRef} {names : List String} {path : String}
    (hpath : o.site.path names = .ok path) (key : String) (v : Value) :
    Application.get ⟨.ofList [(key, v)]⟩ o names =
      if key = path then validate o v else o.default.elim (.error (.config .noDefault)) .ok := by
  have hget : (Table.ofList [(key, v)]).get? path = if key = path then some v else none :=
    Table.get?_insert Table.empty key path v
  rw [Application.get_eq _ hpath, hget]
  by_cases h : key = path
  · rw [if_pos h, if_pos h]
  · rw [if_neg h, if_neg h]
    cases o.default <;> rfl

/-- **What is found under names** is what the key is read as, if the path is trimmed; else it is the
default. -/
theorem found_put_iff {w : View} (hroot : w.root.site.links = []) {c : Flat} {path : String}
    (hfree : ∀ key, Flat.isUnder w.above key = true → c.stored? key = none)
    (hsolid : Solid (w.above ++ "." ++ path)) (hblank : isBlank path = false) {o : OptionRef}
    {names : List String} (hpath : o.site.path names = .ok path) (text : String) (v : Value) :
    (∃ b, w.toApplication (c.put (w.above ++ "." ++ path) text) = .ok b ∧ b.get o names = .ok v) ↔
      ∃ v', ReadAs w.root path text v' ∧ (strip path = path → validate o v' = .ok v) ∧
        (strip path ≠ path → o.default = some v) := by
  simp only [toApplication_put_eq_ok_iff hroot hfree hsolid hblank]
  constructor
  · rintro ⟨_, ⟨v', hread, rfl⟩, hget⟩
    rw [get_single hpath] at hget
    refine ⟨v', hread, fun htrim => by rwa [if_pos htrim] at hget, fun htrim => ?_⟩
    rw [if_neg htrim] at hget
    cases hd : o.default with
    | none => rw [hd] at hget; cases hget
    | some d => rw [hd] at hget; rw [← Except.ok.inj hget]
  · rintro ⟨v', hread, htrimmed, huntrimmed⟩
    refine ⟨_, ⟨v', hread, rfl⟩, ?_⟩
    rw [get_single hpath]
    split
    · next htrim => exact htrimmed htrim
    · next htrim => rw [huntrimmed htrim]; rfl

/-! ### Options of texts -/

theorem validate_text {o : OptionRef} (hτ : o.type = .text) (s : String) :
    validate o (.text s) = .ok (.text s) := by
  rw [validate_eq_ok_iff, OptionRef.accept, hτ]
  rfl

/-- What an option of texts takes is a text, which is its own flat form. -/
theorem serialize_text_eq_ok_iff {o : OptionRef} (hτ : o.type = .text) {v : Value} {text : String} :
    serialize o v = .ok text ↔ validate o v = .ok (.text text) := by
  rw [serialize_eq_ok_iff]
  constructor
  · rintro ⟨w, hw, htext⟩
    obtain ⟨s, rfl⟩ : ∃ s, .text s = w := by
      rw [validate_eq_ok_iff, OptionRef.accept, hτ] at hw
      exact OptionType.exists_text_of_accept (mapError_eq_ok_iff.mp hw)
    obtain rfl : s = text := Except.ok.inj htext
    exact hw
  · intro h
    exact ⟨_, h, rfl⟩

theorem View.set_eq_ok_iff {w : View} {c c' : Flat} {o : OptionRef} {v : Value} {names : List String} :
    w.set c o v names = .ok c' ↔ ∃ path text, o.site.pathFrom w.root.site names = .ok path ∧
      serialize o v = .ok text ∧ isBlank (w.above ++ "." ++ path) = false ∧
      c' = c.put (w.above ++ "." ++ path) text := by
  rw [View.set, bind_eq_ok_iff]
  simp only [View.keyFor_eq_ok_iff, bind_eq_ok_iff, Flat.set]
  constructor
  · rintro ⟨key, ⟨path, hpath, rfl⟩, text, htext, h⟩
    split at h
    · cases h
    · next hb => exact ⟨path, text, hpath, htext, by simpa using hb, (Except.ok.inj h).symm⟩
  · rintro ⟨path, text, hpath, htext, hb, rfl⟩
    exact ⟨_, ⟨path, hpath, rfl⟩, text, htext, by rw [hb]; rfl⟩

/-! ### Names that are safe, and names that are not -/

/-- The first component of a path is a name of the user only below an umbrella. -/
theorem exists_head?_weaveFrom {kind : Kind} {ls : List Link} (hne : ls ≠ []) {names : List String}
    (hnames : kind = .umbrella → ∀ u ∈ names.head?, Solid u) :
    ∃ c cs, (weaveFrom kind ls names).1 = c :: cs ∧ Solid c := by
  cases ls with
  | nil => exact absurd rfl hne
  | cons l ls =>
    rcases takes_none_or_some kind names with hk | ⟨u, us, rfl, rfl⟩
    · rw [weaveFrom_cons hk]
      exact ⟨_, _, rfl, l.name.solid⟩
    · rw [weaveFrom_umbrella_cons]
      exact ⟨_, _, rfl, hnames rfl u rfl⟩

/-- A path from a solid component to the name of an option is solid. -/
theorem solid_join {c : String} {cs : List String} {name : Name} (hc : Solid c)
    (hlast : (c :: cs).getLast? = some name.text) : Solid (join '.' (c :: cs)) := by
  cases cs with
  | nil =>
    rwa [join_singleton]
  | cons c' cs =>
    obtain ⟨lead, hlead⟩ := join_eq_append '.' ((List.getLast?_cons_cons ..).symm.trans hlast)
    have happ : join '.' ([c] ++ c' :: cs) = join '.' [c] ++ "." ++ join '.' (c' :: cs) :=
      join_append (by simp) (by simp)
    rw [join_singleton, hlead] at happ
    change Solid (join '.' ([c] ++ c' :: cs))
    rw [happ]
    exact solid_below hc lead name

/-- **Names that fit, the first trimmed, make a solid key** that leads to the option. -/
theorem parse_of_fits {n : Node} (hk : n.site.last.kind = n.element.kind)
    (hscope : n.element.isOption = false) {ls : List Link} {e : Element} (hl : Leads n.element ls e)
    (hoption : e.kind = .option) {names cs : List String}
    (hw : weaveFrom n.element.kind ls names = (cs, [])) (hf : Fits n.element ls names)
    (htrim : n.element.kind = .umbrella → ∀ u ∈ names.head?, strip u = u) :
    n.parse (join '.' cs) = .ok ⟨⟨n.site.along ls, e⟩, names⟩ ∧ Solid (join '.' cs) := by
  have hne := hl.ne_nil hscope hoption
  obtain ⟨path, hpath, hparse⟩ := Node.parse_path_of_fits hk hl hf (.inl hne)
  rw [Site.pathFrom_along, hk, Site.components_eq_ok_iff.mpr hw] at hpath
  obtain rfl : join '.' cs = path := Except.ok.inj hpath
  refine ⟨hparse, ?_⟩
  have hnames : n.element.kind = .umbrella → ∀ u ∈ names.head?, Solid u := fun hk u hu =>
    ⟨(hf.proper u (List.mem_of_mem_head? hu)).1, htrim hk u hu⟩
  obtain ⟨first, rest, hcs, hfirst⟩ := exists_head?_weaveFrom hne hnames
  obtain ⟨name, hname⟩ := exists_getLast?_of_leads hl hscope hoption n.element.kind names
  rw [hw] at hcs hname
  dsimp only at hcs hname
  subst hcs
  exact solid_join hfirst hname

/-- A blank name of the user spoils the key. -/
theorem not_readAs_of_blank {n : Node} {ls : List Link} {names cs : List String}
    (hw : weaveFrom n.element.kind ls names = (cs, [])) {u : String} (hu : u ∈ names)
    (hblank : isBlank u = true) (text : String) (v : Value) : ¬ReadAs n (join '.' cs) text v := by
  rintro ⟨t, o, ht, -, -⟩
  have hmem : u ∈ (weaveFrom n.element.kind ls names).1 :=
    (mem_weaveFrom_iff (congrArg Prod.snd hw)).mpr (.inr hu)
  rw [hw] at hmem
  have hproper := (Node.parse_eq_ok_iff.mp ht).1 u (mem_split_join hmem (not_mem_of_isBlank hblank))
  cases hproper.symm.trans hblank

/-- **What a view writes is found again** exactly if the path leads to an option that takes the text, and
the value it takes it for is the one that the option has under the trimmed path. Names that fit, the first
trimmed, are found; with a blank name there is no configuration. -/
theorem written_is_found_iff {s : Schema} {n : Node} (hn : s.Holds n) (hroot : n.site.links = [])
    (hscope : n.element.isOption = false) {above : String} {w : View}
    (hview : View.create n above = .ok w) {c c' : Flat}
    (hfree : ∀ key, Flat.isUnder w.above key = true → c.stored? key = none) {o : OptionRef}
    (ho : ∃ d, s.Holds ⟨o.site, .option d o.type o.default⟩) (hτ : o.type = .text) {v : Value}
    {names : List String} (hset : w.set c o v names = .ok c') :
    ∃ text path, validate o v = .ok (.text text) ∧ o.site.path names = .ok path ∧
      (∀ b, w.toApplication c' = .ok b ↔ ∃ v', ReadAs n path text v' ∧ b = ⟨.ofList [(strip path, v')]⟩) ∧
      ((∃ b, w.toApplication c' = .ok b ∧ b.get o names = .ok (.text text)) ↔
        ∃ v', ReadAs n path text v' ∧ (strip path = path → validate o v' = .ok (.text text)) ∧
          (strip path ≠ path → o.default = some (.text text))) ∧
      (Cell s n o names → (n.element.kind = .umbrella → ∀ u ∈ names.head?, strip u = u) →
        ∃ b, w.toApplication c' = .ok b ∧ b.get o names = .ok (.text text)) ∧
      ((∃ u ∈ names, isBlank u = true) → ∃ f, w.toApplication c' = .error f) := by
  obtain ⟨hblank, rfl⟩ := View.create_eq_ok_iff.mp hview
  obtain ⟨path, text, hpathFrom, htext, -, rfl⟩ := View.set_eq_ok_iff.mp hset
  obtain ⟨d, hheld⟩ := ho
  obtain ⟨ls, cs, hsite, hl, hw, rfl⟩ := hn.exists_weaveFrom hheld hpathFrom
  dsimp only at hsite hpathFrom hl
  obtain ⟨name, hname⟩ := exists_getLast?_of_leads hl hscope rfl n.element.kind names
  rw [hw] at hname
  obtain ⟨lead, hlead⟩ := join_eq_append '.' hname
  have hpathBlank : isBlank (join '.' cs) = false := by
    rw [hlead]
    exact name.solid.isBlank_append_left lead
  have hkey : Solid (strip above ++ "." ++ join '.' cs) := by
    rw [hlead]
    exact solid_below (solid_strip hblank) lead name
  have hpath : o.site.path names = .ok (join '.' cs) := by
    rw [hsite, Site.path_along_of_root hroot, ← hsite]
    exact hpathFrom
  have hfound := found_put_iff (w := ⟨n, strip above⟩) hroot hfree hkey hpathBlank hpath text (.text text)
  refine ⟨text, join '.' cs, (serialize_text_eq_ok_iff hτ).mp htext, hpath,
    fun _ => toApplication_put_eq_ok_iff hroot hfree hkey hpathBlank, hfound,
    fun hcell htrim => hfound.mpr ?_, ?_⟩
  · obtain ⟨-, ls', hbelow, hfits⟩ := hcell
    obtain rfl : ls = ls' := by
      rw [hsite, Site.below?_along] at hbelow
      exact Option.some.inj hbelow
    obtain ⟨hparse, hsolid⟩ := parse_of_fits hn.kind_eq hscope hl rfl hw hfits htrim
    rw [← hsite] at hparse
    exact ⟨.text text, ⟨_, o, hparse, rfl, validate_text hτ text⟩, fun _ => validate_text hτ text,
      fun h => absurd hsolid.strip_eq h⟩
  · rintro ⟨u, hu, hub⟩
    rw [exists_error_iff]
    intro b hb
    obtain ⟨v', hread, -⟩ := (toApplication_put_eq_ok_iff hroot hfree hkey hpathBlank).mp hb
    exact not_readAs_of_blank hw hu hub text v' hread

/-- The root of a tree, an umbrella that holds an option of texts. -/
def textRoot : Node :=
  ⟨umbrellaRoot.site, .scope true .none [(optionName, .option .none .text (some .none))]⟩

/-- The schema with this tree alone. -/
def textSchema : Schema := ⟨[(textRoot.site.root.name, textRoot.element)]⟩

/-- The option below the umbrella. -/
def textOption : OptionRef :=
  ⟨textRoot.site.along [⟨optionName, .option⟩], .text, some .none⟩

theorem textSchema_holds : textSchema.Holds textRoot :=
  ⟨textRoot.site.root.name, textRoot.element, rfl, rfl, .here _⟩

theorem textSchema_holds_option : textSchema.Holds ⟨textOption.site, .option .none .text (some .none)⟩ :=
  textSchema_holds.along (@Leads.down _ (.option .none .text (some .none)) _ _ _ rfl (.here _))

/-- What is written under a name with a blank in front is not found under it. -/
theorem written_under_blank_is_lost : ∃ w c', View.create textRoot "p" = .ok w ∧
    w.set Flat.empty textOption (.text "t") [" u"] = .ok c' ∧
    ¬∃ b, w.toApplication c' = .ok b ∧ b.get textOption [" u"] = .ok (.text "t") := by
  have hview : View.create textRoot "p" = .ok ⟨textRoot, "p"⟩ := rfl
  have hset : View.set ⟨textRoot, "p"⟩ Flat.empty textOption (.text "t") [" u"] =
      .ok (Flat.empty.put "p. u.x" "t") := rfl
  refine ⟨_, _, hview, hset, fun hfound => ?_⟩
  obtain ⟨text, path, hvalue, hpath, -, hiff, -⟩ := written_is_found_iff textSchema_holds rfl rfl hview
    (fun _ _ => rfl) ⟨_, textSchema_holds_option⟩ rfl hset
  obtain rfl : text = "t" := by
    have h := Except.ok.inj (hvalue.symm.trans rfl)
    exact (Value.text.inj h)
  obtain rfl : path = " u.x" := Except.ok.inj (hpath.symm.trans rfl)
  obtain ⟨v', -, -, huntrimmed⟩ := hiff.mp hfound
  cases huntrimmed (by decide)

end ScanJobs.Config
