import ScanJobs.Proofs.Schema.Standing

/-! # Declarations only add

A declaration adds a child to an element or gives an option its default, so that all links lead on as
before (`Element.Grows`). What stands in a schema therefore stands in all that come of it by
declarations, and at every site that a declaration handed out there is an element that stands there
(`Declared.exists_node`). -/

namespace ScanJobs.Schema

/-! ### Elements that grow -/

/-- **The second is of the same kind, and all links that lead on from the first lead on from it.** -/
structure Element.Grows (e e' : Element) : Prop where
  kind_eq : e'.kind = e.kind
  exists_leads : ∀ {ls : List Link} {e₁ : Element}, Leads e ls e₁ → ∃ e₁', Leads e' ls e₁'

namespace Element

theorem findChild_append (c : String) (cs cs' : List (Name × Element)) :
    findChild c (cs ++ cs') = (findChild c cs).or (findChild c cs') := by
  induction cs with
  | nil => rfl
  | cons x cs ih =>
    rw [List.cons_append, findChild, findChild]
    by_cases hx : x.1.text = c
    · rw [if_pos hx, if_pos hx, Option.some_or]
    · rw [if_neg hx, if_neg hx, ih]

theorem findChild_modifyChild (c name : String) (f : Element → Element)
    (cs : List (Name × Element)) :
    findChild c (modifyChild name f cs) =
      (findChild c cs).map fun x => if c = name then (x.1, f x.2) else x := by
  induction cs with
  | nil => rfl
  | cons x cs ih =>
    unfold modifyChild
    by_cases hname : x.1.text = name
    · rw [if_pos hname]
      unfold findChild
      by_cases hc : x.1.text = c
      · rw [if_pos hc, if_pos hc, Option.map_some, if_pos (hc.symm.trans hname)]
      · have hne : c ≠ name := fun h => hc (hname.trans h.symm)
        rw [if_neg hc, if_neg hc]
        simp [hne]
    · rw [if_neg hname]
      unfold findChild
      by_cases hc : x.1.text = c
      · have hne : c ≠ name := fun h => hname (hc.trans h)
        rw [if_pos hc, if_pos hc, Option.map_some, if_neg hne]
      · rw [if_neg hc, if_neg hc, ih]

theorem child?_modifyAt (f : Element → Element) (n : Name) (ns : List Name) (e : Element)
    (c : String) :
    (e.modifyAt f (n :: ns)).child? c =
      (e.child? c).map fun x => if c = n.text then (x.1, x.2.modifyAt f ns) else x := by
  cases e with
  | scope u d cs => exact findChild_modifyChild c n.text _ cs
  | option d τ default => rfl

/-- The child that is added is found under its name, if that was free. -/
theorem findChild_concat {name : Name} {cs : List (Name × Element)}
    (hfree : findChild name.text cs = none) (child : Element) :
    findChild name.text (cs ++ [(name, child)]) = some (name, child) := by
  rw [findChild_append, hfree, Option.none_or]
  simp [findChild]

theorem grows_addChild (name : Name) (child e : Element) : Grows e (addChild name child e) := by
  refine ⟨?_, fun {ls e₁} h => ?_⟩
  · cases e <;> rfl
  · cases h with
    | here => exact ⟨_, .here _⟩
    | @down _ e' _ name' ls hc hrest =>
      have hc' : (addChild name child e).child? name'.text = some (name', e') := by
        cases e with
        | scope u d cs =>
          change findChild _ (cs ++ _) = _
          rw [findChild_append, show findChild name'.text cs = _ from hc, Option.some_or]
        | option d τ default => cases hc
      exact ⟨_, .down hc' hrest⟩

theorem grows_modifyAt {f : Element → Element} (hf : ∀ e, Grows e (f e)) (ns : List Name)
    (e : Element) : Grows e (e.modifyAt f ns) := by
  induction ns generalizing e with
  | nil => exact hf e
  | cons n ns ih =>
    refine ⟨?_, fun {ls e₁} h => ?_⟩
    · cases e <;> rfl
    · cases h with
      | here => exact ⟨_, .here _⟩
      | @down _ e' _ name ls hc hrest =>
        have hc' := child?_modifyAt f n ns e name.text
        rw [hc, Option.map_some] at hc'
        by_cases hn : name.text = n.text
        · rw [if_pos hn] at hc'
          obtain ⟨e₁', hrest'⟩ := (ih e').exists_leads hrest
          rw [← (ih e').kind_eq]
          exact ⟨e₁', .down hc' hrest'⟩
        · rw [if_neg hn] at hc'
          exact ⟨e₁, .down hc' hrest⟩

end Element

/-- The changed element stands where the one before it stood. -/
theorem Leads.modifyAt {f : Element → Element} (hf : ∀ e, Element.Grows e (f e)) {e e' : Element}
    {ls : List Link} (h : Leads e ls e') : Leads (e.modifyAt f (ls.map Link.name)) ls (f e') := by
  induction h with
  | here e => exact .here (f e)
  | @down e e₁ e₂ name ls hc _ ih =>
    have hc' := Element.child?_modifyAt f name (ls.map Link.name) e name.text
    rw [hc, Option.map_some, if_pos rfl] at hc'
    rw [← (Element.grows_modifyAt hf (ls.map Link.name) e₁).kind_eq]
    exact .down hc' ih

theorem Leads.at?_eq {e e' : Element} {ls : List Link} (h : Leads e ls e') :
    e.at? (ls.map Link.name) = some e' := by
  induction h with
  | here e => rfl
  | @down e e₁ e₂ name ls hc _ ih =>
    rw [List.map_cons]
    unfold Element.at?
    rw [hc]
    exact ih

/-! ### Schemas that grow -/

variable {s s' : Schema} {site : Site}

/-- **Some element stands at the site.** -/
def Stands (s : Schema) (site : Site) : Prop := ∃ e, s.Holds ⟨site, e⟩

theorem Holds.element?_eq {n : Node} (h : s.Holds n) : s.element? n.site = some n.element := by
  obtain ⟨name, e, htree, -, hl⟩ := h
  unfold element? Site.names
  rw [htree, Option.bind_some, hl.at?_eq]

/-- There is one element that stands at a site. -/
theorem Holds.node?_eq {n : Node} (h : s.Holds n) : s.node? n.site = some n := by
  rw [node?, h.element?_eq]
  rfl

theorem Stands.modifyAt {f : Element → Element} (hf : ∀ e, Element.Grows e (f e)) (p : Site)
    (h : s.Stands site) : (s.modifyAt p f).Stands site := by
  obtain ⟨e', name, e, htree, hroot, hl⟩ := h
  have hgrows := Element.grows_modifyAt hf p.names e
  have htree' : (s.modifyAt p f).trees[site.tree]? =
      some (name, if p.tree = site.tree then e.modifyAt f p.names else e) := by
    unfold Schema.modifyAt
    rw [List.getElem?_modify, htree]
    split <;> rfl
  by_cases hp : p.tree = site.tree
  · rw [if_pos hp] at htree'
    obtain ⟨e'', hl'⟩ := hgrows.exists_leads hl
    exact ⟨e'', name, _, htree', by rw [hroot, hgrows.kind_eq], hl'⟩
  · rw [if_neg hp] at htree'
    exact ⟨e', name, e, htree', hroot, hl⟩

theorem Holds.modifyAt {f : Element → Element} (hf : ∀ e, Element.Grows e (f e)) {e : Element}
    (h : s.Holds ⟨site, e⟩) : (s.modifyAt site f).Holds ⟨site, f e⟩ := by
  obtain ⟨name, e₀, htree, hroot, hl⟩ := h
  refine ⟨name, e₀.modifyAt f site.names, ?_, ?_, hl.modifyAt hf⟩
  · unfold Schema.modifyAt
    rw [List.getElem?_modify, htree]
    simp
  · rw [hroot, (Element.grows_modifyAt hf site.names e₀).kind_eq]

/-! ### Declarations -/

/-- A new tree stands, beside all the others. -/
theorem stands_plant (s : Schema) (name : Name) (e : Element) :
    (s.plant name e).2.Stands (s.plant name e).1 ∧
      ∀ t, s.Stands t → (s.plant name e).2.Stands t := by
  constructor
  · exact ⟨e, name, e, by simp [plant], rfl, .here e⟩
  · rintro t ⟨e', name', e₀, htree, hroot, hl⟩
    refine ⟨e', name', e₀, ?_, hroot, hl⟩
    have hlt : t.tree < s.trees.length := (List.getElem?_eq_some_iff.mp htree).1
    rw [← htree]
    exact List.getElem?_append_left hlt

/-- **What is put under an element that stands** gets a name that is free there. -/
theorem graft_eq_ok {parent : Site} {name : Name} {e e₀ : Element} (hheld : s.Holds ⟨parent, e₀⟩)
    (h : s.graft parent name e = .ok (site, s')) :
    ∃ u d cs, e₀ = .scope u d cs ∧ Element.findChild name.text cs = none ∧
      site = parent.child name e ∧ s' = s.modifyAt parent (Element.addChild name e) := by
  unfold graft at h
  rw [hheld.element?_eq] at h
  cases e₀ with
  | option d τ default => cases h
  | scope u d cs =>
    dsimp only at h
    split at h
    · cases h
    · next hfree =>
      obtain ⟨rfl, rfl⟩ := Prod.mk.inj (Except.ok.inj h)
      exact ⟨u, d, cs, rfl, by simpa using hfree, rfl, rfl⟩

/-- An element put under one that stands stands there, and all others stand still. -/
theorem stands_of_graft {parent : Site} {name : Name} {e : Element} (hp : s.Stands parent)
    (h : s.graft parent name e = .ok (site, s')) :
    s'.Stands site ∧ ∀ t, s.Stands t → s'.Stands t := by
  obtain ⟨e₀, hheld⟩ := hp
  obtain ⟨u, d, cs, rfl, hfree, rfl, rfl⟩ := graft_eq_ok hheld h
  have hparent := hheld.modifyAt (Element.grows_addChild name e)
  exact ⟨⟨e, hparent.along (.down (Element.findChild_concat hfree e) (.here e))⟩,
    fun t ht => ht.modifyAt (Element.grows_addChild name e) parent⟩

theorem stands_of_declareScope {parent : Option Site} (hp : ∀ p ∈ parent, s.Stands p)
    {name : String} {d : Value} {umbrella : Bool}
    (h : s.declareScope parent name d umbrella = .ok (site, s')) :
    s'.Stands site ∧ ∀ t, s.Stands t → s'.Stands t := by
  unfold declareScope at h
  cases hn : properName name with
  | error f => rw [hn] at h; cases h
  | ok n =>
    rw [hn] at h
    cases parent with
    | none =>
      cases h
      exact stands_plant s n _
    | some p => exact stands_of_graft (hp p rfl) h

theorem stands_of_placeOption {parent : Option Site} (hp : ∀ p ∈ parent, s.Stands p)
    {name : String} {d : Value} {τ : OptionType}
    (h : s.placeOption parent name d τ = .ok (site, s')) :
    s'.Stands site ∧ ∀ t, s.Stands t → s'.Stands t := by
  unfold placeOption at h
  cases parent with
  | none => cases h
  | some p =>
    cases hn : properName name with
    | error f => rw [hn] at h; cases h
    | ok n =>
      rw [hn] at h
      exact stands_of_graft (hp p rfl) h

theorem Stands.setDefault (v : Value) (p : Site) (h : s.Stands site) :
    (s.setDefault p v).Stands site := by
  refine h.modifyAt (fun e => ?_) p
  cases e with
  | scope u d cs => exact ⟨rfl, fun hl => ⟨_, hl⟩⟩
  | option d τ default =>
    refine ⟨rfl, fun hl => ?_⟩
    cases hl with
    | here => exact ⟨_, .here _⟩
    | down hc => cases hc

/-- What an option's declaration hands out stands. So does the option if its default is refused, and
all that stood before. -/
theorem stands_of_declareOption {parent : Option Site} (hp : ∀ p ∈ parent, s.Stands p)
    {name : String} {d : Value} {τ : OptionType} {default : Value}
    {result : Except DeclarationFault Site}
    (h : s.declareOption parent name d τ default = (result, s')) :
    (∀ site, result = .ok site → s'.Stands site) ∧ ∀ t, s.Stands t → s'.Stands t := by
  unfold declareOption at h
  cases hplace : s.placeOption parent name d τ with
  | error f =>
    rw [hplace] at h
    cases h
    exact ⟨fun _ h => (by cases h), fun _ ht => ht⟩
  | ok placed =>
    obtain ⟨site, s₁⟩ := placed
    obtain ⟨hsite, hkept⟩ := stands_of_placeOption hp hplace
    rw [hplace] at h
    dsimp only at h
    cases hd : defaultFor site τ default with
    | error u =>
      rw [hd] at h
      cases h
      exact ⟨fun _ h => (by cases h), hkept⟩
    | ok v =>
      rw [hd] at h
      cases h
      refine ⟨?_, fun t ht => (hkept t ht).setDefault v site⟩
      rintro _ ⟨⟩
      exact hsite.setDefault v site

/-- **What declarations lead to**: a schema, and the sites that they handed out. -/
inductive Declared : Schema → List Site → Prop where
  | empty : Declared Schema.empty []
  | scope {s s' : Schema} {sites : List Site} {parent : Option Site} {name : String} {d : Value}
      {umbrella : Bool} {site : Site} (before : Declared s sites) (hp : ∀ p ∈ parent, p ∈ sites)
      (h : s.declareScope parent name d umbrella = .ok (site, s')) : Declared s' (site :: sites)
  | option {s s' : Schema} {sites : List Site} {parent : Option Site} {name : String} {d : Value}
      {τ : OptionType} {default : Value} {result : Except DeclarationFault Site}
      (before : Declared s sites) (hp : ∀ p ∈ parent, p ∈ sites)
      (h : s.declareOption parent name d τ default = (result, s')) :
      Declared s' (result.toOption.toList ++ sites)

theorem Declared.stands {sites : List Site} (h : Declared s sites) :
    ∀ site ∈ sites, s.Stands site := by
  induction h with
  | empty => simp
  | scope _ hp h ih =>
    obtain ⟨hsite, hkept⟩ := stands_of_declareScope (fun p hmem => ih p (hp p hmem)) h
    intro t ht
    rcases List.mem_cons.mp ht with rfl | ht
    · exact hsite
    · exact hkept t (ih t ht)
  | @option s s' sites parent name d τ default result _ hp h ih =>
    obtain ⟨hsite, hkept⟩ := stands_of_declareOption (fun p hmem => ih p (hp p hmem)) h
    intro t ht
    rcases List.mem_append.mp ht with ht | ht
    · cases result with
      | error f => cases ht
      | ok site =>
        obtain rfl := List.mem_singleton.mp ht
        exact hsite _ rfl
    · exact hkept t (ih t ht)

/-- **Every site handed out is that of an element**, and this stands in the schema. -/
theorem Declared.exists_node {sites : List Site} (h : Declared s sites) (hs : site ∈ sites) :
    ∃ n, s.node? site = some n ∧ s.Holds n := by
  obtain ⟨e, hheld⟩ := h.stands site hs
  exact ⟨⟨site, e⟩, hheld.node?_eq, hheld⟩

end ScanJobs.Schema
