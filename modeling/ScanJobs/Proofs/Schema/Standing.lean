import ScanJobs.Proofs.Schema.Reading

/-! # Where elements stand

`Leads e ls e'` says that the links `ls` lead from `e` down to `e'`, and `s.Holds n` that the element
of `n` stands in the schema at the site of `n`. Readings follow links (`Reads.leads`), and whatever the
links lead to can be read (`Leads.reads_append`). A schema keeps its umbrellas apart if none lies
below another. -/

namespace ScanJobs.Schema

open ScanJobs.Text

/-- **The links from an element down to another.** -/
inductive Leads : Element → List Link → Element → Prop where
  | here (e : Element) : Leads e [] e
  | down {e e' e'' : Element} {name : Name} {ls : List Link}
      (h : e.child? name.text = some (name, e')) (rest : Leads e' ls e'') :
      Leads e (⟨name, e'.kind⟩ :: ls) e''

namespace Leads

theorem append {e e' e'' : Element} {ls ls' : List Link} (h : Leads e ls e')
    (h' : Leads e' ls' e'') : Leads e (ls ++ ls') e'' := by
  induction h with
  | here => exact h'
  | down hc _ ih => exact .down hc (ih h')

theorem of_append {e e'' : Element} {ls ls' : List Link} (h : Leads e (ls ++ ls') e'') :
    ∃ e', Leads e ls e' ∧ Leads e' ls' e'' := by
  induction ls generalizing e with
  | nil => exact ⟨e, .here e, h⟩
  | cons l ls ih =>
    cases h with
    | down hc hrest =>
      obtain ⟨e', hl, hl'⟩ := ih hrest
      exact ⟨e', .down hc hl, hl'⟩

theorem exists_child {e e'' : Element} {l : Link} {ls : List Link} (h : Leads e (l :: ls) e'') :
    ∃ e', e.child? l.name.text = some (l.name, e') ∧ Leads e' ls e'' := by
  cases h with
  | down hc hrest => exact ⟨_, hc, hrest⟩

/-- Along the same names there are the same links. -/
theorem links_eq {e e₁ e₂ : Element} {ls ls' : List Link} (h : Leads e ls e₁)
    (h' : Leads e ls' e₂) (hnames : ls.map Link.name = ls'.map Link.name) : ls = ls' := by
  induction h generalizing ls' with
  | here =>
    cases h' with
    | here => rfl
    | down => cases hnames
  | down hc _ ih =>
    cases h' with
    | here => cases hnames
    | down hc' hrest' =>
      obtain ⟨rfl, hrest⟩ := List.cons.inj hnames
      cases hc.symm.trans hc'
      rw [ih hrest' hrest]

/-- The last link tells the kind of the element. -/
theorem kind_eq {e e' : Element} {ls : List Link} (h : Leads e ls e') :
    e'.kind = (ls.getLast?.map Link.kind).getD e.kind := by
  induction h with
  | here => rfl
  | @down e e₁ e₂ name ls _ _ ih =>
    rw [ih]
    cases ls with
    | nil => rfl
    | cons l ls => rw [List.getLast?_cons_cons, List.getLast?_cons]; rfl

/-- From a scope some link leads to an option. -/
theorem ne_nil {e e' : Element} {ls : List Link} (h : Leads e ls e') (he : e.isOption = false)
    (he' : e'.kind = .option) : ls ≠ [] := by
  rintro rfl
  cases h
  cases e with
  | scope umbrella d cs => cases umbrella <;> cases he'
  | option d τ default => cases he

end Leads

theorem Element.kind_eq_umbrella_iff {e : Element} :
    e.kind = .umbrella ↔ ∃ d cs, e = .scope true d cs := by
  cases e with
  | scope umbrella d cs => cases umbrella <;> simp [kind]
  | option d τ default => simp [kind]

/-! ### Readings follow links -/

theorem Reads.leads {e e' : Element} {taken : Bool} {steps : List Step}
    (h : Reads e taken steps e') : Leads e (Step.links steps) e' := by
  induction h with
  | done e => exact .here e
  | down hc _ ih => exact .down hc ih
  | called _ _ ih => exact ih

/-- The names of the links alone lead down, and the reading may go on from there. -/
theorem Leads.reads_append {e e' e'' : Element} {ls : List Link} {steps : List Step} (taken : Bool)
    (hne : ls ≠ []) (h : Leads e ls e') (h' : Reads e' false steps e'') :
    Reads e taken (Step.downs ls ++ steps) e'' := by
  induction h generalizing taken with
  | here => exact absurd rfl hne
  | @down e e₁ e₂ name ls hc hrest ih =>
    cases e with
    | option d τ default => simp [Element.child?, Element.children, Element.findChild] at hc
    | scope umbrella d cs =>
      by_cases hls : ls = []
      · subst hls
        cases hrest
        exact .down hc h'
      · exact .down hc (ih false hls h')

theorem Leads.reads_append_of_free {e e' e'' : Element} {ls : List Link} {steps : List Step}
    (h : Leads e ls e') (h' : Reads e' false steps e'') :
    Reads e false (Step.downs ls ++ steps) e'' := by
  by_cases hls : ls = []
  · subst hls
    cases h
    exact h'
  · exact h.reads_append false hls h'

/-- A reading that takes a name of the user comes to an umbrella. -/
theorem Reads.exists_umbrella {e e' : Element} {taken : Bool} {steps : List Step}
    (h : Reads e taken steps e') (hu : Step.users steps ≠ []) :
    ∃ ls e₁, Leads e ls e₁ ∧ e₁.kind = .umbrella := by
  induction h with
  | done => exact absurd rfl hu
  | down hc _ ih =>
    obtain ⟨ls, e₁, hl, hk⟩ := ih hu
    exact ⟨_, e₁, .down hc hl, hk⟩
  | called => exact ⟨[], _, .here _, rfl⟩

/-! ### Umbrellas apart -/

/-- **No umbrella lies below another**, at the element or below it. -/
def Element.UmbrellasApart (e : Element) : Prop :=
  ∀ ls₁ ls₂ e₁ e₂, Leads e ls₁ e₁ → Leads e₁ ls₂ e₂ → ls₂ ≠ [] →
    e₁.kind = .umbrella → e₂.kind ≠ .umbrella

theorem Element.UmbrellasApart.of_leads {e e' : Element} {ls : List Link} (h : e.UmbrellasApart)
    (hl : Leads e ls e') : e'.UmbrellasApart :=
  fun _ _ _ _ h₁ h₂ => h _ _ _ _ (hl.append h₁) h₂

/-- Options alone are no umbrellas. -/
theorem Element.umbrellasApart_of_options {umbrella : Bool} {d : Value}
    {cs : List (Name × Element)} (h : ∀ c ∈ cs, c.2.isOption = true) :
    (Element.scope umbrella d cs).UmbrellasApart := by
  have hend : ∀ {e e' : Element} {ls : List Link}, e.isOption = true → Leads e ls e' → ls = [] := by
    intro e e' ls he hl
    cases hl with
    | here => rfl
    | down hc =>
      cases e <;> cases he
      cases hc
  have hoption : ∀ {e : Element}, e.isOption = true → e.kind ≠ .umbrella := by
    intro e he
    cases e <;> cases he
    simp [kind]
  intro ls₁ ls₂ e₁ e₂ h₁ h₂ hne _
  cases h₁ with
  | here =>
    cases h₂ with
    | here => exact absurd rfl hne
    | down hc hrest =>
      have hc' := h _ (findChild_mem hc)
      obtain rfl := hend hc' hrest
      cases hrest
      exact hoption hc'
  | down hc hrest =>
    have hc' := h _ (findChild_mem hc)
    obtain rfl := hend hc' hrest
    cases hrest
    exact absurd (hend hc' h₂) hne

/-! ### Elements of a schema -/

/-- **The element stands in the schema**, at its site. -/
def Holds (s : Schema) (n : Node) : Prop :=
  ∃ name e, s.trees[n.site.tree]? = some (name, e) ∧ n.site.root = ⟨name, e.kind⟩ ∧
    Leads e n.site.links n.element

variable {s : Schema} {n : Node}

theorem Holds.kind_eq (h : s.Holds n) : n.site.last.kind = n.element.kind := by
  obtain ⟨name, e, -, hroot, hl⟩ := h
  rw [hl.kind_eq, Site.last, hroot]
  cases n.site.links.getLast? <;> rfl

/-- **No umbrella of the schema lies below another.** -/
def UmbrellasApart (s : Schema) : Prop :=
  ∀ t ∈ s.trees, t.2.UmbrellasApart

/-- The tree in which an element stands. -/
theorem Holds.exists_tree (h : s.Holds n) :
    ∃ t ∈ s.trees, n.site.root.kind = t.2.kind ∧ Leads t.2 n.site.links n.element := by
  obtain ⟨name, e, htree, hroot, hl⟩ := h
  exact ⟨(name, e), List.mem_of_getElem? htree, by rw [hroot], hl⟩

theorem Holds.umbrellasApart (hs : s.UmbrellasApart) (h : s.Holds n) :
    n.element.UmbrellasApart := by
  obtain ⟨t, ht, -, hl⟩ := h.exists_tree
  exact (hs t ht).of_leads hl

/-- What links lead to from an element of the schema is one too. -/
theorem Holds.along (h : s.Holds n) {ls : List Link} {e : Element} (hl : Leads n.element ls e) :
    s.Holds ⟨n.site.along ls, e⟩ := by
  obtain ⟨name, e₀, htree, hroot, hl₀⟩ := h
  exact ⟨name, e₀, htree, hroot, hl₀.append hl⟩

/-! ### A schema with an umbrella, and one with an umbrella below another -/

/-- The name of an option. -/
def optionName : Name := ⟨"x", by decide, by decide, by decide⟩

/-- The root of a tree, an umbrella that holds an option. -/
def umbrellaRoot : Node :=
  ⟨⟨0, ⟨⟨"r", by decide, by decide, by decide⟩, .umbrella⟩, []⟩,
    .scope true .none [(optionName, .option .none .integer (some .none))]⟩

/-- The schema with this tree alone. -/
def umbrellaSchema : Schema := ⟨[(umbrellaRoot.site.root.name, umbrellaRoot.element)]⟩

theorem umbrellaSchema_holds : umbrellaSchema.Holds umbrellaRoot :=
  ⟨umbrellaRoot.site.root.name, umbrellaRoot.element, rfl, rfl, .here _⟩

theorem umbrellaSchema_apart : umbrellaSchema.UmbrellasApart := by
  intro t ht
  rw [umbrellaSchema, List.mem_singleton] at ht
  subst ht
  exact Element.umbrellasApart_of_options (by simp [Element.isOption])

/-- An umbrella that holds an umbrella with an option. -/
def nestedUmbrellas : Element :=
  .scope true .none [(⟨"a", by decide, by decide, by decide⟩,
    .scope true .none [(optionName, .option .none .integer (some .none))])]

/-- The scope under the root of the nested umbrellas. -/
def nestedScope : Link := ⟨⟨"a", by decide, by decide, by decide⟩, .umbrella⟩

/-- The root of a tree of nested umbrellas. -/
def nestedRoot : Node :=
  ⟨⟨0, ⟨⟨"r", by decide, by decide, by decide⟩, .umbrella⟩, []⟩, nestedUmbrellas⟩

/-- The schema with this tree alone. -/
def nestedSchema : Schema := ⟨[(nestedRoot.site.root.name, nestedUmbrellas)]⟩

theorem nestedSchema_holds : nestedSchema.Holds nestedRoot :=
  ⟨nestedRoot.site.root.name, nestedUmbrellas, rfl, rfl, .here _⟩

end ScanJobs.Schema
