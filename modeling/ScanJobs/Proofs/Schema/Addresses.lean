import ScanJobs.Proofs.Fallible
import ScanJobs.Proofs.Schema.Declaring
import ScanJobs.Proofs.Schema.Fitting

/-! # Paths as addresses

The path of an element from a scope, written with names that fit the umbrellas on the way, is a key
that leads from the scope back to the element and to the names. So it is an address: no two elements,
and no element under two lists of names, share one (`Addresses.unique`). All of this holds of the
elements that declarations put under a scope, whatever was declared before, after or in vain
(`declared_paths_lead_back`). -/

namespace ScanJobs.Schema

open ScanJobs.Text

/-! ### Sites below a site -/

/-- Below the end of a way stands what a longer way leads to. -/
theorem Leads.of_linksBelow? {e₀ e₁ e₂ : Element} {ls₁ ls₂ ls : List Link} (h₁ : Leads e₀ ls₁ e₁)
    (h₂ : Leads e₀ ls₂ e₂) (h : linksBelow? ls₁ ls₂ = some ls) :
    ls₂ = ls₁ ++ ls ∧ Leads e₁ ls e₂ := by
  induction h₁ generalizing ls₂ with
  | here e =>
    have hls : ls₂ = ls := by simpa [linksBelow?] using h
    exact ⟨hls, hls ▸ h₂⟩
  | @down e e' e'' name ls' hc _ ih =>
    cases h₂ with
    | here => simp [linksBelow?] at h
    | @down _ e₃ _ name₃ ls₃ hc₃ hrest₃ =>
      rw [linksBelow?] at h
      split at h
      · next hname =>
        -- the links bear one name, so they lead to one child
        obtain rfl : name = name₃ := hname
        obtain ⟨-, rfl⟩ := Prod.mk.inj (Option.some.inj (hc.symm.trans hc₃))
        obtain ⟨hls, hl⟩ := ih hrest₃ h
        exact ⟨by rw [hls, List.cons_append], hl⟩
      · cases h

/-- Of two sites of a schema the links between them lead from the upper one to the lower one. -/
theorem Holds.of_below? {s : Schema} {n n' : Node} {ls : List Link} (h : s.Holds n)
    (h' : s.Holds n') (hb : n'.site.below? n.site = some ls) :
    n'.site = n.site.along ls ∧ Leads n.element ls n'.element := by
  unfold Site.below? at hb
  split at hb
  · next htree =>
    obtain ⟨name, e, ht, hroot, hl⟩ := h
    obtain ⟨name', e', ht', hroot', hl'⟩ := h'
    rw [htree, ht] at ht'
    cases ht'
    obtain ⟨hlinks, hbelow⟩ := hl.of_linksBelow? hl' hb
    refine ⟨?_, hbelow⟩
    calc n'.site = ⟨n'.site.tree, n'.site.root, n'.site.links⟩ := rfl
      _ = n.site.along ls := by rw [htree, hroot', hlinks, ← hroot]; rfl
  · cases hb

/-- A path from one element of a schema to another is woven from the links between them. -/
theorem Holds.exists_weaveFrom {s : Schema} {n n' : Node} (h : s.Holds n) (h' : s.Holds n')
    {names : List String} {path : String} (hpath : n'.site.pathFrom n.site names = .ok path) :
    ∃ ls cs, n'.site = n.site.along ls ∧ Leads n.element ls n'.element ∧
      weaveFrom n.element.kind ls names = (cs, []) ∧ path = join '.' cs := by
  cases hb : n'.site.below? n.site with
  | none =>
    rw [Site.pathFrom, Site.wayFrom, hb] at hpath
    cases hpath
  | some ls =>
    obtain ⟨hsite, hl⟩ := h.of_below? h' hb
    rw [hsite, Site.pathFrom_along, h.kind_eq] at hpath
    obtain ⟨cs, hcs, rfl⟩ := map_eq_ok_iff.mp hpath
    exact ⟨ls, cs, hsite, hl, Site.components_eq_ok_iff.mp hcs, rfl⟩

/-! ### Addresses -/

/-- **The links with the names are an address** of the element at their end. -/
structure Addresses (e : Element) (ls : List Link) (names : List String) (e' : Element) : Prop where
  leads : Leads e ls e'
  fits : Fits e ls names
  /-- An element itself has no key without a name. -/
  ne_nil : ls ≠ [] ∨ names ≠ []

namespace Addresses

variable {n : Node} {ls ls' : List Link} {names names' : List String} {e e' : Element}

/-- An address can be written, and leads to what it is an address of. -/
theorem parse_pathFrom (hk : n.site.last.kind = n.element.kind)
    (h : Addresses n.element ls names e) :
    ∃ path, (n.site.along ls).pathFrom n.site names = .ok path ∧
      n.parse path = .ok ⟨⟨n.site.along ls, e⟩, names⟩ :=
  Node.parse_path_of_fits hk h.leads h.fits h.ne_nil

/-- **No two addresses are written alike.** -/
theorem unique (hk : n.site.last.kind = n.element.kind) (h : Addresses n.element ls names e)
    (h' : Addresses n.element ls' names' e')
    (heq : (n.site.along ls).pathFrom n.site names = (n.site.along ls').pathFrom n.site names') :
    ls = ls' ∧ names = names' := by
  obtain ⟨path, hpath, hparse⟩ := h.parse_pathFrom hk
  obtain ⟨path', hpath', hparse'⟩ := h'.parse_pathFrom hk
  obtain rfl : path = path' := Except.ok.inj (hpath.symm.trans (heq.trans hpath'))
  have ht := Except.ok.inj (hparse.symm.trans hparse')
  have hlinks : n.site.links ++ ls = n.site.links ++ ls' :=
    congrArg (fun t : Target => t.site.links) ht
  exact ⟨List.append_cancel_left hlinks, congrArg Target.names ht⟩

end Addresses

/-- **Paths lead back.** Whatever was declared, the elements below a scope are those that its links
lead to; the path of each from the scope, with any names that fit, leads back to it and them; and the
path tells the element and the names. -/
theorem declared_paths_lead_back {s : Schema} {sites : List Site} (h : Declared s sites)
    {root : Site} (hroot : root ∈ sites) :
    ∃ e, s.node? root = some ⟨root, e⟩ ∧
      (∀ site ∈ sites, ∀ ls, site.below? root = some ls →
        ∃ e', s.node? site = some ⟨site, e'⟩ ∧ site = root.along ls ∧ Leads e ls e') ∧
      (∀ ls names e', Addresses e ls names e' →
        s.node? (root.along ls) = some ⟨root.along ls, e'⟩ ∧
        ∃ path, (root.along ls).pathFrom root names = .ok path ∧
          Node.parse ⟨root, e⟩ path = .ok ⟨⟨root.along ls, e'⟩, names⟩) ∧
      ∀ ls names e' ls' names' e'', Addresses e ls names e' → Addresses e ls' names' e'' →
        (root.along ls).pathFrom root names = (root.along ls').pathFrom root names' →
        (ls, e', names) = (ls', e'', names') := by
  obtain ⟨e, hheld⟩ := h.stands root hroot
  have hk := hheld.kind_eq
  refine ⟨e, hheld.node?_eq, fun site hsite ls hbelow => ?_, fun ls names e' ha => ?_,
    fun ls names e' ls' names' e'' ha ha' heq => ?_⟩
  · obtain ⟨e', hheld'⟩ := h.stands site hsite
    obtain ⟨hsite, hl⟩ := hheld.of_below? hheld' hbelow
    exact ⟨e', hheld'.node?_eq, hsite, hl⟩
  · exact ⟨(hheld.along ha.leads).node?_eq, ha.parse_pathFrom hk⟩
  · obtain ⟨rfl, rfl⟩ := ha.unique hk ha' heq
    have hat := ha.leads.at?_eq.symm.trans ha'.leads.at?_eq
    rw [Option.some.inj hat]

theorem nestedSchema_declared : Declared nestedSchema
    [nestedRoot.site.along [nestedScope, ⟨optionName, .option⟩], nestedRoot.site.along [nestedScope],
      nestedRoot.site] := by
  have hroot : Declared _ [nestedRoot.site] :=
    @Declared.scope _ _ _ none "r" .none true _ .empty (by simp) rfl
  have hscope : Declared _ [nestedRoot.site.along [nestedScope], nestedRoot.site] :=
    @Declared.scope _ _ _ (some nestedRoot.site) "a" .none true _ hroot (by simp) rfl
  exact @Declared.option _ _ _ (some (nestedRoot.site.along [nestedScope])) "x" .none .integer .none
    (.ok _) hscope (by simp) rfl

/-- Both umbrellas may have a name, and the root has a key of its own if it has one. -/
theorem nested_umbrellas_addressed :
    (nestedRoot.site.along [nestedScope, ⟨optionName, .option⟩]).pathFrom nestedRoot.site
        ["u", "v"] = .ok "u.a.v.x" ∧
      nestedRoot.parse "u.a.v.x" =
        .ok ⟨⟨nestedRoot.site.along [nestedScope, ⟨optionName, .option⟩],
          .option .none .integer (some .none)⟩, ["u", "v"]⟩ ∧
      nestedRoot.site.pathFrom nestedRoot.site ["u"] = .ok "u" ∧
      nestedRoot.parse "u" = .ok ⟨nestedRoot, ["u"]⟩ := by
  have hroot : nestedRoot.site ∈ [nestedRoot.site.along [nestedScope, ⟨optionName, .option⟩],
      nestedRoot.site.along [nestedScope], nestedRoot.site] := by simp
  obtain ⟨e, he, -, hback, -⟩ := declared_paths_lead_back nestedSchema_declared hroot
  obtain rfl : e = nestedUmbrellas := (congrArg Node.element (Option.some.inj he)).symm
  have hoption : Addresses nestedUmbrellas [nestedScope, ⟨optionName, .option⟩] ["u", "v"]
      (.option .none .integer (some .none)) := by
    refine ⟨?_, ⟨by decide, ?_, ?_⟩, by decide⟩
    · exact @Leads.down _ (.scope true .none _) _ _ _ rfl
        (@Leads.down _ (.option .none .integer (some .none)) _ _ _ rfl (.here _))
    · simp only [List.mem_cons, List.not_mem_nil, or_false, forall_eq_or_imp, forall_eq]
      exact ⟨⟨by decide, by decide⟩, by decide, by decide⟩
    · intro p hp
      rcases List.mem_cons.mp hp with rfl | hp
      · rfl
      · obtain rfl := List.mem_singleton.mp hp
        rfl
  have hroot : Addresses nestedUmbrellas [] ["u"] nestedUmbrellas := by
    refine ⟨.here _, ⟨by decide, ?_, ?_⟩, by decide⟩
    · rw [List.forall_mem_singleton]
      exact ⟨by decide, by decide⟩
    · intro p hp
      obtain rfl := List.mem_singleton.mp hp
      rfl
  obtain ⟨-, path, hpath, hparse⟩ := hback _ _ _ hoption
  obtain ⟨-, path', hpath', hparse'⟩ := hback _ _ _ hroot
  obtain rfl : path = "u.a.v.x" := Except.ok.inj (hpath.symm.trans rfl)
  obtain rfl : path' = "u" := Except.ok.inj (hpath'.symm.trans rfl)
  exact ⟨hpath, hparse, hpath', hparse'⟩

end ScanJobs.Schema
