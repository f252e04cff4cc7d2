import ScanJobs.Proofs.Schema.Weaving

/-! # Names that fit the umbrellas on a way

Names fit a way down if there are no more of them than umbrellas, and none is improper or the name of
a child of its umbrella. With such names an element has a path that leads back to it
(`Node.parse_path_of_fits`), and the path from the root is the path of the scope with this path below
it (`Holds.weaveFrom_along`). -/

namespace ScanJobs.Schema

open ScanJobs.Text

/-- The umbrellas that one comes by on the way along the links. -/
def Element.umbrellas : Element → List Link → List Element
  | e, [] => if e.kind = .umbrella then [e] else []
  | e, l :: ls =>
    (if e.kind = .umbrella then [e] else []) ++
      ((e.child? l.name.text).elim [] fun c => umbrellas c.2 ls)

/-- **The names fit the umbrellas on the way.** -/
structure Fits (e : Element) (ls : List Link) (names : List String) : Prop where
  length_le : names.length ≤ (e.umbrellas ls).length
  proper : ∀ u ∈ names, Step.Proper u
  /-- No name is that of a child of its umbrella. -/
  free : ∀ p ∈ names.zip (e.umbrellas ls), p.2.child? p.1 = none

namespace Fits

variable {e : Element} {l : Link} {c : Name × Element} {ls : List Link} {u : String}
  {names : List String}

theorem nil (e : Element) (ls : List Link) : Fits e ls [] :=
  ⟨Nat.zero_le _, by simp, by simp⟩

/-- An umbrella takes the first name. -/
theorem of_umbrella (he : e.kind = .umbrella) (hc : e.child? l.name.text = some c)
    (h : Fits e (l :: ls) (u :: names)) :
    Step.Proper u ∧ e.child? u = none ∧ Fits c.2 ls names := by
  obtain ⟨hlen, hproper, hfree⟩ := h
  rw [Element.umbrellas, if_pos he, hc] at hlen hfree
  simp only [Option.elim_some, List.singleton_append, List.length_cons,
    Nat.add_le_add_iff_right] at hlen
  simp only [Option.elim_some, List.singleton_append, List.zip_cons_cons,
    List.forall_mem_cons] at hfree
  exact ⟨hproper u (List.mem_cons_self ..), hfree.1, hlen,
    fun u' hu' => hproper u' (List.mem_cons_of_mem _ hu'), hfree.2⟩

/-- Another element leaves the names to those below it. -/
theorem of_not_umbrella (he : e.kind ≠ .umbrella) (hc : e.child? l.name.text = some c)
    (h : Fits e (l :: ls) names) : Fits c.2 ls names := by
  obtain ⟨hlen, hproper, hfree⟩ := h
  rw [Element.umbrellas, if_neg he, hc] at hlen hfree
  exact ⟨by simpa using hlen, hproper, by simpa using hfree⟩

end Fits

/-- **Names that fit are read on the way**, from the top down. -/
theorem Leads.exists_reads {e e' : Element} {ls : List Link} (h : Leads e ls e') :
    ∀ {names : List String}, Fits e ls names →
      ∃ steps, Reads e false steps e' ∧ Step.links steps = ls ∧ Step.users steps = names ∧
        TopDown e.kind steps := by
  induction h with
  | here e =>
    intro names hf
    cases names with
    | nil => exact ⟨[], .done e false, rfl, rfl, trivial⟩
    | cons u names =>
      by_cases he : e.kind = .umbrella
      · have hlen := hf.length_le
        rw [Element.umbrellas, if_pos he] at hlen
        obtain rfl : names = [] := List.eq_nil_of_length_eq_zero (by simpa using hlen)
        have hfree := hf.free (u, e) (by rw [Element.umbrellas, if_pos he]; simp)
        obtain ⟨d, cs, rfl⟩ := Element.kind_eq_umbrella_iff.mp he
        exact ⟨[.called u], .called hfree (.done _ _), rfl, rfl, trivial⟩
      · have hlen := hf.length_le
        rw [Element.umbrellas, if_neg he] at hlen
        simp at hlen
  | @down e e₁ e₂ name ls hc hrest ih =>
    intro names hf
    -- only a scope has a child
    obtain ⟨umbrella, d, cs, rfl⟩ : ∃ umbrella d cs, e = .scope umbrella d cs := by
      cases e with
      | scope umbrella d cs => exact ⟨umbrella, d, cs, rfl⟩
      | option d τ default => cases hc
    rcases takes_none_or_some (Element.scope umbrella d cs).kind names with hk | ⟨u, us, hk, rfl⟩
    · have hf' : Fits e₁ ls names := by
        by_cases hu : (Element.scope umbrella d cs).kind = .umbrella
        · rw [hk hu]
          exact .nil e₁ ls
        · exact hf.of_not_umbrella (l := ⟨name, e₁.kind⟩) hu hc
      obtain ⟨steps, hreads, hlinks, husers, htop⟩ := ih hf'
      refine ⟨.down ⟨name, e₁.kind⟩ :: steps, .down hc hreads, ?_, husers, fun hu => ?_, htop⟩
      · rw [Step.links_down, hlinks]
      · rw [husers, hk hu]
    · obtain ⟨-, hfree, hf'⟩ := hf.of_umbrella (l := ⟨name, e₁.kind⟩) hk hc
      obtain ⟨steps, hreads, hlinks, husers, htop⟩ := ih hf'
      obtain ⟨d', cs', he⟩ := Element.kind_eq_umbrella_iff.mp hk
      cases he
      refine ⟨.called u :: .down ⟨name, e₁.kind⟩ :: steps, .called hfree (.down hc hreads), ?_, ?_,
        fun hu => ?_, htop⟩
      · rw [Step.links_called, Step.links_down, hlinks]
      · rw [Step.users_called, Step.users_down, husers]
      · cases hu

/-- **The path of an element leads back to it**, with the names that it was written with. -/
theorem Node.parse_path_of_fits {n : Node} {e : Element} {ls : List Link} {names : List String}
    (hk : n.site.last.kind = n.element.kind) (h : Leads n.element ls e)
    (hf : Fits n.element ls names) (hne : ls ≠ [] ∨ names ≠ []) :
    ∃ path, (n.site.along ls).pathFrom n.site names = .ok path ∧
      n.parse path = .ok ⟨⟨n.site.along ls, e⟩, names⟩ := by
  obtain ⟨steps, hreads, rfl, rfl, htop⟩ := h.exists_reads hf
  refine ⟨_, Node.pathFrom_of_topDown hk hreads htop, Node.parse_join_texts hreads ?_ hf.proper⟩
  rintro rfl
  exact hne.elim (fun h => h rfl) fun h => h rfl

/-! ### Paths from the root -/

theorem Element.exists_umbrella {e : Element} {ls : List Link} (h : e.umbrellas ls ≠ []) :
    ∃ ls' e', Leads e ls' e' ∧ e'.kind = .umbrella := by
  induction ls generalizing e with
  | nil =>
    by_cases he : e.kind = .umbrella
    · exact ⟨[], e, .here e, he⟩
    · rw [Element.umbrellas, if_neg he] at h
      exact absurd rfl h
  | cons l ls ih =>
    by_cases he : e.kind = .umbrella
    · exact ⟨[], e, .here e, he⟩
    · rw [Element.umbrellas, if_neg he, List.nil_append] at h
      cases hc : e.child? l.name.text with
      | none => rw [hc] at h; exact absurd rfl h
      | some c =>
        rw [hc] at h
        obtain ⟨ls', e', hl, hk⟩ := ih h
        have htext : c.1.text = l.name.text := findChild_text hc
        exact ⟨_, e', .down (by rw [htext, hc]) hl, hk⟩

/-- Names for an umbrella at the end of the links or below are not taken before. -/
theorem Leads.weaveFrom_append {e e' : Element} {ls : List Link} (h : Leads e ls e')
    (ha : e.UmbrellasApart) {names : List String}
    (hn : names = [] ∨ ∃ ls' e'', Leads e' ls' e'' ∧ e''.kind = .umbrella) (ls' : List Link) :
    weaveFrom e.kind (ls ++ ls') names =
      ((ls.map fun l => l.name.text) ++ (weaveFrom e'.kind ls' names).1,
        (weaveFrom e'.kind ls' names).2) := by
  induction h with
  | here => rfl
  | @down e e₁ e₂ name ls hc hrest ih =>
    have hl : Leads e [⟨name, e₁.kind⟩] e₁ := .down hc (.here e₁)
    have hfree : e.kind = .umbrella → names = [] := by
      intro hk
      rcases hn with hn | ⟨ls'', e'', hl'', hk''⟩
      · exact hn
      · exact absurd hk'' (ha [] _ e e'' (.here e) (.down hc (hrest.append hl'')) (by simp) hk)
    rw [List.cons_append, weaveFrom_cons hfree, ih (ha.of_leads hl) hn]
    rfl

/-- **The way from the root** goes to the scope without names and on from there. -/
theorem Holds.weaveFrom_along {s : Schema} (hs : s.UmbrellasApart) {n : Node} (h : s.Holds n)
    {ls : List Link} {names : List String} (hf : Fits n.element ls names) :
    weaveFrom n.site.root.kind (n.site.links ++ ls) names =
      ((n.site.links.map fun l => l.name.text) ++ (weaveFrom n.element.kind ls names).1,
        (weaveFrom n.element.kind ls names).2) := by
  obtain ⟨t, ht, hroot, hl⟩ := h.exists_tree
  rw [hroot]
  refine hl.weaveFrom_append (hs t ht) ?_ ls
  by_cases hn : names = []
  · exact .inl hn
  · have hlen := hf.length_le
    have hpos := List.length_pos_iff.mpr hn
    have humb : n.element.umbrellas ls ≠ [] := List.length_pos_iff.mp (by omega)
    exact .inr (Element.exists_umbrella humb)

end ScanJobs.Schema
