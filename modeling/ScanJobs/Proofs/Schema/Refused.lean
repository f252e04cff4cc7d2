import ScanJobs.Proofs.Fallible
import ScanJobs.Proofs.Schema.Declaring
import ScanJobs.Proofs.Text.Solid

/-! # Declarations that are refused

A declaration that is refused leaves the schema as it was, with one exception: an option is put in place
before its default is looked at, so an option that is refused for its default stays behind
(`refused_changes_nothing_iff`). It is found under its name, has no default, and keeps its name from being
declared again (`LeavesOption`). -/

namespace ScanJobs.Schema

open ScanJobs.Text

/-- A declaration that is asked for. -/
inductive Declaration where
  | scope (parent : Option Site) (name : String) (description : Value) (umbrella : Bool)
  | option (parent : Option Site) (name : String) (description : Value) (type : OptionType)
      (default : Value)

namespace Declaration

/-- The scope that the element is to stand under. -/
def parent : Declaration → Option Site
  | .scope p .. => p
  | .option p .. => p

/-- The text given for the name. -/
def name : Declaration → String
  | .scope _ n .. => n
  | .option _ n .. => n

/-- The element to put in place. -/
def element : Declaration → Element
  | .scope _ _ d umbrella => .scope umbrella d []
  | .option _ _ d τ _ => .option d τ none

/-- What a declaration hands out, and the schema after it, if it changes nothing when it is refused. -/
def settle (s : Schema) : Except DeclarationFault (Site × Schema) →
    Except DeclarationFault Site × Schema
  | .ok (site, s') => (.ok site, s')
  | .error f => (.error f, s)

/-- **What comes of a declaration**, and the schema after it. -/
def run : Declaration → Schema → Except DeclarationFault Site × Schema
  | .scope p n d umbrella, s => settle s (s.declareScope p n d umbrella)
  | .option p n d τ default, s => s.declareOption p n d τ default

/-- The schema after declarations, each of which may have been refused. -/
def after (calls : List Declaration) (s : Schema) : Schema :=
  calls.foldl (fun s c => (c.run s).2) s

end Declaration

variable {s s' : Schema} {p site : Site} {name : Name}

/-! ### One declaration -/

/-- **What a declaration does**: it is refused, plants a tree, or puts an element under another. An option
gets its default then, or is left without one. -/
inductive Does (s : Schema) : Declaration → Except DeclarationFault Site → Schema → Prop where
  | refuses (c : Declaration) (f : DeclarationFault) (h : ∀ u, f ≠ .unfitDefault u) :
      Does s c (.error f) s
  | plants (n : String) (d : Value) (umbrella : Bool) (name : Name) (hn : properName n = .ok name) :
      Does s (.scope none n d umbrella) (.ok (s.plant name (.scope umbrella d [])).1)
        (s.plant name (.scope umbrella d [])).2
  | opens (p : Site) (n : String) (d : Value) (umbrella : Bool) (name : Name) (site : Site)
      (s' : Schema) (hn : properName n = .ok name)
      (h : s.graft p name (.scope umbrella d []) = .ok (site, s')) :
      Does s (.scope (some p) n d umbrella) (.ok site) s'
  | leaves (p : Site) (n : String) (d : Value) (τ : OptionType) (default : Value) (name : Name)
      (site : Site) (s' : Schema) (u : Unfit) (hn : properName n = .ok name)
      (h : s.graft p name (.option d τ none) = .ok (site, s'))
      (hd : defaultFor site τ default = .error u) :
      Does s (.option (some p) n d τ default) (.error (.unfitDefault u)) s'
  | fills (p : Site) (n : String) (d : Value) (τ : OptionType) (default : Value) (name : Name)
      (site : Site) (s' : Schema) (v : Value) (hn : properName n = .ok name)
      (h : s.graft p name (.option d τ none) = .ok (site, s'))
      (hd : defaultFor site τ default = .ok v) :
      Does s (.option (some p) n d τ default) (.ok site) (s'.setDefault site v)

theorem properName_error {n : String} {f : DeclarationFault} (h : properName n = .error f)
    (u : Unfit) : f ≠ .unfitDefault u := by
  rintro rfl
  unfold properName at h
  cases hn : Name.ofText n with
  | error g =>
    rw [hn] at h
    cases h
  | ok name =>
    rw [hn] at h
    cases h

theorem graft_error {e : Element} {f : DeclarationFault} (h : s.graft p name e = .error f)
    (u : Unfit) : f ≠ .unfitDefault u := by
  rintro rfl
  unfold graft at h
  split at h
  · cases h
  · split at h
    · cases h
    · cases h
  · cases h

theorem declareScope_under {n : String} (hn : properName n = .ok name) (p : Site) (d : Value)
    (umbrella : Bool) :
    s.declareScope (some p) n d umbrella = s.graft p name (.scope umbrella d []) := by
  rw [declareScope, hn]
  rfl

theorem placeOption_under {n : String} (hn : properName n = .ok name) (p : Site) (d : Value)
    (τ : OptionType) : s.placeOption (some p) n d τ = s.graft p name (.option d τ none) := by
  rw [placeOption, hn]
  rfl

theorem placeOption_error {parent : Option Site} {n : String} {d : Value} {τ : OptionType}
    {f : DeclarationFault} (h : s.placeOption parent n d τ = .error f) (u : Unfit) :
    f ≠ .unfitDefault u := by
  cases parent with
  | none =>
    rintro rfl
    cases h
  | some p =>
    cases hn : properName n with
    | ok name =>
      rw [placeOption_under hn] at h
      exact graft_error h u
    | error g =>
      rw [placeOption, hn] at h
      cases h
      exact properName_error hn u

theorem does_run (c : Declaration) (s : Schema) : Does s c (c.run s).1 (c.run s).2 := by
  cases c with
  | scope parent n d umbrella =>
    cases hn : properName n with
    | error f =>
      have hscope : s.declareScope parent n d umbrella = .error f := by
        rw [declareScope, hn]
        rfl
      rw [Declaration.run, hscope]
      exact .refuses _ f (properName_error hn)
    | ok name =>
      cases parent with
      | none =>
        have hscope : s.declareScope none n d umbrella = .ok (s.plant name (.scope umbrella d [])) := by
          rw [declareScope, hn]
          rfl
        rw [Declaration.run, hscope]
        exact .plants n d umbrella name hn
      | some p =>
        rw [Declaration.run, declareScope_under hn]
        cases hg : s.graft p name (.scope umbrella d []) with
        | error f => exact .refuses _ f (graft_error hg)
        | ok placed => exact .opens p n d umbrella name _ _ hn hg
  | option parent n d τ default =>
    rw [Declaration.run]
    unfold declareOption
    cases hplace : s.placeOption parent n d τ with
    | error f => exact .refuses _ f (placeOption_error hplace)
    | ok placed =>
      obtain ⟨site, s'⟩ := placed
      cases parent with
      | none => cases hplace
      | some p =>
        cases hn : properName n with
        | error f =>
          rw [placeOption, hn] at hplace
          cases hplace
        | ok name =>
          rw [placeOption_under hn] at hplace
          dsimp only
          cases hd : defaultFor site τ default with
          | error u => exact .leaves p n d τ default name site s' u hn hplace hd
          | ok v => exact .fills p n d τ default name site s' v hn hplace hd

/-! ### What declarations keep -/

theorem graft_cases {e : Element} (h : s.graft p name e = .ok (site, s')) :
    s' = s ∨ s' = s.modifyAt p (Element.addChild name e) := by
  unfold graft at h
  split at h
  · cases h
  · split at h
    · cases h
    · exact .inr (Prod.mk.inj (Except.ok.inj h)).2.symm
  · exact .inl (Prod.mk.inj (Except.ok.inj h)).2.symm

theorem Stands.graft {t : Site} (ht : s.Stands t) {e : Element}
    (h : s.graft p name e = .ok (site, s')) : s'.Stands t := by
  obtain rfl | rfl := graft_cases h
  · exact ht
  · exact ht.modifyAt (Element.grows_addChild name e) p

/-- What stands is not taken away by any declaration. -/
theorem Stands.run {t : Site} (ht : s.Stands t) (c : Declaration) : (c.run s).2.Stands t := by
  have hdoes := does_run c s
  generalize (c.run s).1 = r at hdoes
  generalize (c.run s).2 = s' at hdoes ⊢
  cases hdoes with
  | refuses => exact ht
  | plants n d umbrella name => exact (stands_plant s name _).2 t ht
  | opens p n d umbrella name site _ hn h => exact ht.graft h
  | leaves p n d τ default name site _ u hn h => exact ht.graft h
  | fills p n d τ default name site s₁ v hn h => exact (ht.graft h).setDefault v site

theorem Stands.after {t : Site} (ht : s.Stands t) (calls : List Declaration) :
    (Declaration.after calls s).Stands t := by
  induction calls generalizing s with
  | nil => exact ht
  | cons c calls ih => exact ih (ht.run c)

/-- The parent of what stands is a scope that has a child of the name. -/
theorem Stands.exists_parent {e : Element} (h : s.Stands (p.child name e)) :
    ∃ umbrella d cs, s.Holds ⟨p, .scope umbrella d cs⟩ ∧
      (Element.findChild name.text cs).isSome = true := by
  obtain ⟨e₁, rootName, e₀, htree, hroot, hl⟩ := h
  obtain ⟨parent, hl₀, hl₁⟩ := hl.of_append
  have hheld : s.Holds ⟨p, parent⟩ := ⟨rootName, e₀, htree, hroot, hl₀⟩
  obtain ⟨child, hc, -⟩ := hl₁.exists_child
  cases parent with
  | option d τ default => cases hc
  | scope umbrella d cs =>
    have hfound : Element.findChild name.text cs = some (name, child) := hc
    exact ⟨umbrella, d, cs, hheld, by rw [hfound, Option.isSome_some]⟩

/-! ### Declarations under a name -/

theorem run_of_graft_error {c : Declaration} {f : DeclarationFault} (hp : c.parent = some p)
    (hn : properName c.name = .ok name) (h : s.graft p name c.element = .error f) :
    c.run s = (.error f, s) := by
  cases c with
  | scope parent n d umbrella =>
    obtain rfl : parent = some p := hp
    have hscope : s.declareScope (some p) n d umbrella = .error f :=
      (declareScope_under hn p d umbrella).trans h
    rw [Declaration.run, hscope]
    rfl
  | option parent n d τ default =>
    obtain rfl : parent = some p := hp
    have hoption : s.placeOption (some p) n d τ = .error f := (placeOption_under hn p d τ).trans h
    rw [Declaration.run, declareOption, hoption]

/-- A declaration under a name that is free is not refused but for its default. -/
theorem run_of_graft_ok {c : Declaration} {f : DeclarationFault} (hp : c.parent = some p)
    (hn : properName c.name = .ok name) (h : s.graft p name c.element = .ok (site, s'))
    (hrun : (c.run s).1 = .error f) : ∃ u, f = .unfitDefault u := by
  cases c with
  | scope parent n d umbrella =>
    obtain rfl : parent = some p := hp
    have hscope : s.declareScope (some p) n d umbrella = .ok (site, s') :=
      (declareScope_under hn p d umbrella).trans h
    rw [Declaration.run, hscope] at hrun
    cases hrun
  | option parent n d τ default =>
    obtain rfl : parent = some p := hp
    have hoption : s.placeOption (some p) n d τ = .ok (site, s') := (placeOption_under hn p d τ).trans h
    rw [Declaration.run, declareOption, hoption] at hrun
    dsimp only at hrun
    cases hd : defaultFor site τ default with
    | ok v =>
      rw [hd] at hrun
      cases hrun
    | error u =>
      rw [hd] at hrun
      cases hrun
      exact ⟨u, rfl⟩

theorem graft_of_free {u : Bool} {d : Value} {cs : List (Name × Element)}
    (h : s.Holds ⟨p, .scope u d cs⟩) (hfree : Element.findChild name.text cs = none) (e : Element) :
    s.graft p name e = .ok (p.child name e, s.modifyAt p (Element.addChild name e)) := by
  rw [graft, h.element?_eq]
  simp [hfree]

/-- **A name is taken for good**: nothing is declared under it again, whatever else is declared. -/
theorem run_of_stands {e : Element} (h : s.Stands (p.child name e)) {c : Declaration}
    (hp : c.parent = some p) (hn : properName c.name = .ok name) :
    c.run s = (.error (.taken p name), s) := by
  obtain ⟨umbrella, d, cs, hheld, htaken⟩ := h.exists_parent
  refine run_of_graft_error hp hn ?_
  rw [graft, hheld.element?_eq]
  simp [htaken]

/-! ### One more child -/

namespace Element

/-- **What an element declares**: the names of its children, and what they are to keys. -/
def declared (e : Element) : List Link :=
  e.children.map fun c => ⟨c.1, c.2.kind⟩

theorem declared_modifyChild {f : Element → Element} (hf : ∀ e, (f e).kind = e.kind) (c : String)
    (cs : List (Name × Element)) :
    (modifyChild c f cs).map (fun c => Link.mk c.1 c.2.kind) = cs.map fun c => ⟨c.1, c.2.kind⟩ := by
  induction cs with
  | nil => rfl
  | cons x cs ih =>
    unfold modifyChild
    split
    · rw [List.map_cons, List.map_cons, hf]
    · rw [List.map_cons, List.map_cons, ih]

/-- A change further down does not change what an element declares. -/
theorem declared_modifyAt {f : Element → Element} (hf : ∀ e, Grows e (f e)) (n : Name)
    (ns : List Name) (e : Element) : (e.modifyAt f (n :: ns)).declared = e.declared := by
  cases e with
  | scope u d cs => exact declared_modifyChild (fun e => (grows_modifyAt hf ns e).kind_eq) n.text cs
  | option d τ default => rfl

end Element

theorem Name.eq_of_text_eq {n n' : Name} (h : n.text = n'.text) : n = n' := by
  cases n
  cases n'
  cases h
  rfl

/-- What an element elsewhere declares does not change when a child is added. -/
theorem Leads.addChild {child e e₁ : Element} {ls : List Link} (h : Leads e ls e₁) (ns : List Name)
    (hne : ls.map Link.name ≠ ns) :
    ∃ e₁', Leads (e.modifyAt (Element.addChild name child) ns) ls e₁' ∧ e₁'.declared = e₁.declared := by
  have hgrows := Element.grows_addChild name child
  induction h generalizing ns with
  | here e =>
    cases ns with
    | nil => exact absurd rfl hne
    | cons n ns => exact ⟨_, .here _, Element.declared_modifyAt hgrows n ns e⟩
  | @down e e' e₁ n ls hc hrest ih =>
    cases ns with
    | nil =>
      -- the child that is added stands beside the way down
      cases e with
      | option d τ default => cases hc
      | scope u d cs =>
        have hfound : Element.findChild n.text cs = some (n, e') := hc
        refine ⟨e₁, .down ?_ hrest, rfl⟩
        change Element.findChild n.text (cs ++ [(name, child)]) = _
        rw [Element.findChild_append, hfound, Option.some_or]
    | cons n' ns =>
      have hc' := Element.child?_modifyAt (Element.addChild name child) n' ns e n.text
      rw [hc, Option.map_some] at hc'
      by_cases hn : n.text = n'.text
      · obtain rfl := Name.eq_of_text_eq hn
        rw [if_pos rfl] at hc'
        obtain ⟨e₁', hl, hdecl⟩ := ih ns fun heq => hne (by rw [List.map_cons, heq])
        rw [← (Element.grows_modifyAt hgrows ns e').kind_eq]
        exact ⟨e₁', .down hc' hl, hdecl⟩
      · rw [if_neg hn] at hc'
        exact ⟨e₁, .down hc' hrest, rfl⟩

/-- In one tree of a schema the sites of elements differ by the names on the way. -/
theorem Holds.site_eq {n n' : Node} (h : s.Holds n) (h' : s.Holds n')
    (htree : n.site.tree = n'.site.tree) (hnames : n.site.names = n'.site.names) :
    n.site = n'.site := by
  obtain ⟨rootName, e, ht, hroot, hl⟩ := h
  obtain ⟨rootName', e', ht', hroot', hl'⟩ := h'
  rw [htree, ht'] at ht
  cases ht
  calc n.site = ⟨n.site.tree, n.site.root, n.site.links⟩ := rfl
    _ = n'.site := by rw [htree, hroot, ← hroot', hl.links_eq hl' hnames]

/-- Elements at other sites declare what they did. -/
theorem Holds.addChild {child e : Element} (h : s.Holds ⟨site, e⟩) {parent : Element}
    (hp : s.Holds ⟨p, parent⟩) (hne : site ≠ p) :
    ∃ e', (s.modifyAt p (Element.addChild name child)).Holds ⟨site, e'⟩ ∧ e'.declared = e.declared := by
  obtain ⟨rootName, e₀, htree, hroot, hl⟩ := id h
  have htree' : (s.modifyAt p (Element.addChild name child)).trees[site.tree]? = some (rootName,
      if p.tree = site.tree then e₀.modifyAt (Element.addChild name child) p.names else e₀) := by
    unfold Schema.modifyAt
    rw [List.getElem?_modify, htree]
    split <;> rfl
  by_cases htrees : p.tree = site.tree
  · rw [if_pos htrees] at htree'
    obtain ⟨e', hl', hdecl⟩ := hl.addChild p.names fun hnames => hne (h.site_eq hp htrees.symm hnames)
    refine ⟨e', ⟨rootName, _, htree', ?_, hl'⟩, hdecl⟩
    rw [hroot, (Element.grows_modifyAt (Element.grows_addChild name child) p.names e₀).kind_eq]
  · rw [if_neg htrees] at htree'
    exact ⟨e, ⟨rootName, e₀, htree', hroot, hl⟩, rfl⟩

/-- A name alone is a key of one component. -/
theorem components_name (name : Name) : components name.text = .ok [name.text] := by
  have hsplit : split '.' name.text = [name.text] := by
    have h := split_join (List.cons_ne_nil name.text []) (fun p hp => by
      obtain rfl := List.mem_singleton.mp hp
      exact name.noDot)
    rwa [join_singleton] at h
  rw [components, hsplit]
  simp [name.isBlank_text]

theorem parse_name (n : Node) (name : Name) :
    n.parse name.text = walk name.text n.site n.element false [name.text] := by
  rw [Node.parse, components_name]
  rfl

/-- A name that is free is unknown, but that an umbrella takes it for a name of the user. -/
theorem parse_of_free {n : Node} {u : Bool} {d : Value} {cs : List (Name × Element)}
    (he : n.element = .scope u d cs) (hfree : Element.findChild name.text cs = none) :
    n.parse name.text =
      if n.isUmbrella then .ok ⟨n, [name.text]⟩ else .error (.unknown name.text name.text n.site) := by
  obtain ⟨site, e⟩ := n
  obtain rfl : e = .scope u d cs := he
  rw [parse_name]
  unfold walk
  cases u with
  | true => simp [hfree, Node.isUmbrella, Element.kind, walk, Except.map, Target.addName]
  | false => simp [hfree, Node.isUmbrella, Element.kind]

theorem parse_of_child {n : Node} {u : Bool} {d : Value} {cs : List (Name × Element)} {child : Element}
    (he : n.element = .scope u d cs) (hc : Element.findChild name.text cs = some (name, child)) :
    n.parse name.text = .ok ⟨⟨n.site.child name child, child⟩, []⟩ := by
  obtain ⟨site, e⟩ := n
  obtain rfl : e = .scope u d cs := he
  rw [parse_name]
  simp [walk, hc]

/-! ### The option that stays -/

/-- **The option stays under the parent, without a default**, and all else is as it was. -/
structure LeavesOption (s s' : Schema) (p : Site) (name : Name) (d : Value) (τ : OptionType) : Prop where
  /-- The option becomes the last child of the parent. -/
  placed : ∃ umbrella dp cs, s.Holds ⟨p, .scope umbrella dp cs⟩ ∧
    s'.Holds ⟨p, .scope umbrella dp (cs ++ [(name, .option d τ none)])⟩
  /-- All other elements declare what they declared. -/
  others : ∀ {site : Site} {e : Element}, s.Holds ⟨site, e⟩ → site ≠ p →
    ∃ e', s'.Holds ⟨site, e'⟩ ∧ e'.declared = e.declared
  /-- The name had no meaning under the parent but that of a name of the user. -/
  unknown : ∃ n, s.node? p = some n ∧ n.child? name.text = none ∧
    n.parse name.text =
      if n.isUmbrella then .ok ⟨n, [name.text]⟩ else .error (.unknown name.text name.text p)
  /-- It leads to the option now, which lacks a default. -/
  found : ∃ n, s'.node? p = some n ∧
    n.child? name.text = some (p.child name (.option d τ none)) ∧
    n.parse name.text = .ok ⟨⟨p.child name (.option d τ none), .option d τ none⟩, []⟩ ∧
    s'.option? (p.child name (.option d τ none)) = some ⟨p.child name (.option d τ none), τ, none⟩
  /-- Before, a declaration under the name was refused for no other reason than its default. -/
  free : ∀ {c : Declaration} {f : DeclarationFault}, c.parent = some p →
    properName c.name = .ok name → (c.run s).1 = .error f → ∃ u, f = .unfitDefault u
  /-- Now any is, whatever is declared in between. -/
  refused : ∀ (between : List Declaration) {c : Declaration}, c.parent = some p →
    properName c.name = .ok name →
    c.run (Declaration.after between s') = (.error (.taken p name), Declaration.after between s')

theorem leavesOption_of_graft {d : Value} {τ : OptionType} (hp : s.Stands p)
    (h : s.graft p name (.option d τ none) = .ok (site, s')) : LeavesOption s s' p name d τ := by
  obtain ⟨parent, hheld⟩ := hp
  have hsite := (stands_of_graft ⟨parent, hheld⟩ h).1
  obtain ⟨u, dp, cs, rfl, hfree, rfl, rfl⟩ := graft_eq_ok hheld h
  have hheld' := hheld.modifyAt (Element.grows_addChild name (.option d τ none))
  have hchild := Element.findChild_concat hfree (.option d τ none)
  have hoption := hheld'.along (.down hchild (.here _))
  refine ⟨⟨u, dp, cs, hheld, hheld'⟩, fun he hne => he.addChild hheld hne, ?_, ?_, ?_, ?_⟩
  · refine ⟨_, hheld.node?_eq, ?_, ?_⟩
    · change (Element.findChild name.text cs).map _ = none
      rw [hfree, Option.map_none]
    · exact parse_of_free rfl hfree
  · refine ⟨_, hheld'.node?_eq, ?_, ?_, ?_⟩
    · change (Element.findChild name.text (cs ++ [(name, .option d τ none)])).map _ = _
      rw [hchild, Option.map_some]
    · exact parse_of_child rfl hchild
    · exact congrArg (fun n => n.bind Node.option?) hoption.node?_eq
  · intro c f hc hn hrun
    exact run_of_graft_ok hc hn (graft_of_free hheld hfree c.element) hrun
  · intro between c hc hn
    exact run_of_stands (hsite.after between) hc hn

/-! ### What a refused declaration changes -/

/-- **A refused declaration changes nothing**, unless an option is refused for its default, which stays
then. -/
theorem refused_changes_nothing_iff {c : Declaration} {f : DeclarationFault}
    (hp : ∀ p ∈ c.parent, s.Stands p) (h : c.run s = (.error f, s')) :
    (s' = s ↔ ∀ u, f ≠ .unfitDefault u) ∧
      ∀ u, f = .unfitDefault u → ∃ p n d τ default name, c = .option (some p) n d τ default ∧
        properName n = .ok name ∧ LeavesOption s s' p name d τ := by
  have hdoes := does_run c s
  rw [h] at hdoes
  dsimp only at hdoes
  cases hdoes with
  | refuses _ _ hf => exact ⟨⟨fun _ => hf, fun _ => rfl⟩, fun u hu => absurd hu (hf u)⟩
  | leaves p n d τ default name site _ u hn hg hd =>
    have hleaves := leavesOption_of_graft (hp p rfl) hg
    refine ⟨⟨?_, fun hf => absurd rfl (hf u)⟩, fun _ _ => ⟨p, n, d, τ, default, name, rfl, hn, hleaves⟩⟩
    rintro rfl
    obtain ⟨umbrella, dp, cs, hheld, hheld'⟩ := hleaves.placed
    have hsame := Option.some.inj (hheld.element?_eq.symm.trans hheld'.element?_eq)
    have hlength := congrArg (fun e => e.children.length) hsame
    simp [Element.children] at hlength

/-- The root of a tree, a scope. -/
def bareRoot : Site := ⟨0, ⟨umbrellaRoot.site.root.name, .scope⟩, []⟩

/-- The schema with this scope alone. -/
def bareSchema : Schema := ⟨[(bareRoot.root.name, .scope false .none [])]⟩

theorem bareSchema_declared : Declared bareSchema [bareRoot] :=
  @Declared.scope _ _ _ none "r" .none false _ .empty (by simp) rfl

/-- An option of integers that is declared with a text for its default stays, and is not declared again
with a number. -/
theorem option_stays_without_default :
    ∃ u s', (Declaration.option (some bareRoot) "x" .none .integer (.text "abc")).run bareSchema =
        (.error (.unfitDefault u), s') ∧
      s' ≠ bareSchema ∧ LeavesOption bareSchema s' bareRoot optionName .none .integer ∧
      (Declaration.option (some bareRoot) " x" .none .integer (.int 1)).run s' =
        (.error (.taken bareRoot optionName), s') := by
  have hrun : (Declaration.option (some bareRoot) "x" .none .integer (.text "abc")).run bareSchema =
      (.error (.unfitDefault ⟨bareRoot.child optionName (.option .none .integer none), .text "abc", 1⟩),
        bareSchema.modifyAt bareRoot (Element.addChild optionName (.option .none .integer none))) := rfl
  have hparent : ∀ p ∈ (Declaration.option (some bareRoot) "x" .none .integer (.text "abc")).parent,
      bareSchema.Stands p := by
    rintro p ⟨⟩
    exact bareSchema_declared.stands bareRoot (List.mem_singleton.mpr rfl)
  obtain ⟨hsame, hleft⟩ := refused_changes_nothing_iff hparent hrun
  obtain ⟨p, n, d, τ, default, name, hc, hn, hleaves⟩ := hleft _ rfl
  cases hc
  have hname : properName "x" = .ok optionName := rfl
  cases hname.symm.trans hn
  refine ⟨_, _, hrun, fun heq => hsame.mp heq _ rfl, hleaves, ?_⟩
  exact hleaves.refused [] rfl rfl

end ScanJobs.Schema
