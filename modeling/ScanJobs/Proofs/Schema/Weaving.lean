import ScanJobs.Proofs.Schema.Standing
import ScanJobs.Proofs.Text.Solid

/-! # Writing the path of what was read

A path hands the user's names out from the top: each umbrella on the way takes the next one as long
as there are any. This gives back the key that was read exactly where the reading handed them out in
the same way, that is where no umbrella was left without a name before another took one
(`TopDown`, `Reads.weaveFrom_eq`). Where umbrellas are apart, every reading is of this sort
(`Reads.topDown`). -/

namespace ScanJobs.Schema

open ScanJobs.Text

theorem Name.solid (name : Name) : Solid name.text :=
  ⟨name.isBlank_text, name.strip_text⟩

/-- What is left to read at an element: an umbrella that has its name is like any other scope. -/
def Element.kindLeft (e : Element) (taken : Bool) : Kind := if taken then .scope else e.kind

/-- **The names are handed out from the top**: after an umbrella without a name there is none. -/
def TopDown : Kind → List Step → Prop
  | _, [] => True
  | _, .called _ :: steps => TopDown .scope steps
  | kind, .down l :: steps => (kind = .umbrella → Step.users steps = []) ∧ TopDown l.kind steps

theorem weaveFrom_umbrella_cons (ls : List Link) (u : String) (names : List String) :
    weaveFrom .umbrella ls (u :: names) =
      (u :: (weaveFrom .scope ls names).1, (weaveFrom .scope ls names).2) := rfl

theorem weave_cons (l : Link) (ls : List Link) (names : List String) :
    weave (l :: ls) names =
      (l.name.text :: (weaveFrom l.kind ls names).1, (weaveFrom l.kind ls names).2) := by
  obtain ⟨name, kind⟩ := l
  cases kind with
  | scope => rfl
  | option => rfl
  | umbrella => cases names <;> rfl

/-- Unless an umbrella takes a name, the way goes on with the next link. -/
theorem weaveFrom_cons {kind : Kind} {names : List String} (h : kind = .umbrella → names = [])
    (l : Link) (ls : List Link) :
    weaveFrom kind (l :: ls) names =
      (l.name.text :: (weaveFrom l.kind ls names).1, (weaveFrom l.kind ls names).2) := by
  rw [← weave_cons]
  cases kind with
  | scope => rfl
  | option => rfl
  | umbrella => rw [h rfl]; rfl

/-- Either the element takes no name, or it is an umbrella that takes the next. -/
theorem takes_none_or_some (kind : Kind) (names : List String) :
    (kind = .umbrella → names = []) ∨ ∃ u us, kind = .umbrella ∧ names = u :: us := by
  cases names with
  | nil => exact .inl fun _ => rfl
  | cons u us =>
    by_cases hk : kind = .umbrella
    · exact .inr ⟨u, us, hk, rfl⟩
    · exact .inl fun e => absurd e hk

theorem weaveFrom_nil_fst {kind : Kind} (h : kind ≠ .umbrella) (names : List String) :
    (weaveFrom kind [] names).1 = [] := by
  cases kind with
  | scope => rfl
  | option => rfl
  | umbrella => exact absurd rfl h

/-- **Weaving loses nothing**: links and names end up in the components, or among what is left. -/
theorem weaveFrom_perm (kind : Kind) (ls : List Link) (names : List String) :
    ((weaveFrom kind ls names).1 ++ (weaveFrom kind ls names).2).Perm
      ((ls.map fun l => l.name.text) ++ names) := by
  induction ls generalizing kind names with
  | nil =>
    cases kind with
    | scope => exact .refl _
    | option => exact .refl _
    | umbrella => cases names <;> exact .refl _
  | cons l ls ih =>
    have hnext : ∀ (kind : Kind) (names : List String), (kind = .umbrella → names = []) →
        ((weaveFrom kind (l :: ls) names).1 ++ (weaveFrom kind (l :: ls) names).2).Perm
          (((l :: ls).map fun l => l.name.text) ++ names) := by
      intro kind names h
      rw [weaveFrom_cons h]
      exact (ih l.kind names).cons _
    rcases takes_none_or_some kind names with hk | ⟨u, us, rfl, rfl⟩
    · exact hnext kind names hk
    · rw [weaveFrom_umbrella_cons]
      have hu := (hnext .scope us (fun e => by cases e)).cons u
      exact hu.trans List.perm_middle.symm

/-- If no name is left over, the components are those of the links and the names. -/
theorem mem_weaveFrom_iff {kind : Kind} {ls : List Link} {names : List String}
    (h : (weaveFrom kind ls names).2 = []) {c : String} :
    c ∈ (weaveFrom kind ls names).1 ↔ (∃ l ∈ ls, l.name.text = c) ∨ c ∈ names := by
  have hperm := weaveFrom_perm kind ls names
  rw [h, List.append_nil] at hperm
  rw [hperm.mem_iff, List.mem_append, List.mem_map]

/-- So does reading. -/
theorem Step.texts_perm (steps : List Step) :
    (texts steps).Perm (((links steps).map fun l => l.name.text) ++ users steps) := by
  induction steps with
  | nil => exact .refl _
  | cons s steps ih =>
    cases s with
    | down l => exact ih.cons _
    | called u => exact (ih.cons u).trans List.perm_middle.symm

/-! ### Places for names -/

/-- The umbrellas on the way from an element of this kind along the links. -/
def places (kind : Kind) (ls : List Link) : Nat := (kind :: ls.map Link.kind).count .umbrella

theorem places_cons (kind : Kind) (l : Link) (ls : List Link) :
    places kind (l :: ls) = (if kind = .umbrella then 1 else 0) + places l.kind ls := by
  rw [places, List.map_cons, List.count_cons, ← places]
  by_cases h : kind = .umbrella
  · simp only [h, beq_self_eq_true, if_true]
    omega
  · simp [h]

/-- Names are left over if there are more of them than umbrellas. -/
theorem weaveFrom_snd (kind : Kind) (ls : List Link) (names : List String) :
    (weaveFrom kind ls names).2 = names.drop (places kind ls) := by
  induction ls generalizing kind names with
  | nil =>
    cases kind with
    | scope => rfl
    | option => rfl
    | umbrella => cases names <;> rfl
  | cons l ls ih =>
    rw [places_cons]
    rcases takes_none_or_some kind names with hk | ⟨u, us, rfl, rfl⟩
    · rw [weaveFrom_cons hk, ih]
      by_cases hkind : kind = .umbrella
      · rw [hk hkind, List.drop_nil, List.drop_nil]
      · rw [if_neg hkind, Nat.zero_add]
    · rw [weaveFrom_umbrella_cons, weaveFrom_cons (fun e => by cases e), ih, if_pos rfl,
        Nat.add_comm, List.drop_succ_cons]

/-- The umbrellas on the way but for the element at its end. -/
def placesBefore (kind : Kind) (ls : List Link) : Nat :=
  (kind :: ls.map Link.kind).dropLast.count .umbrella

theorem placesBefore_cons (kind : Kind) (l : Link) (ls : List Link) :
    placesBefore kind (l :: ls) = (if kind = .umbrella then 1 else 0) + placesBefore l.kind ls := by
  rw [placesBefore, List.map_cons, List.dropLast_cons_of_ne_nil (by simp), List.count_cons, ← placesBefore]
  by_cases h : kind = .umbrella
  · simp only [h, beq_self_eq_true, if_true]
    omega
  · simp [h]

theorem placesBefore_le (kind : Kind) (ls : List Link) : placesBefore kind ls ≤ places kind ls :=
  (List.dropLast_sublist _).count_le _

/-- **A way may be woven in two parts**, if the upper part has a name for each umbrella that is wholly in
it: the umbrella at its end takes its name from the lower part. -/
theorem weaveFrom_append_of_length {kind : Kind} {ls ls' : List Link} {names names' : List String}
    (h : names.length = placesBefore kind ls) :
    weaveFrom kind (ls ++ ls') (names ++ names') =
      ((weaveFrom kind ls names).1 ++
          (weaveFrom ((ls.getLast?.map Link.kind).getD kind) ls' names').1,
        (weaveFrom ((ls.getLast?.map Link.kind).getD kind) ls' names').2) := by
  induction ls generalizing kind names with
  | nil =>
    obtain rfl : names = [] := List.length_eq_zero_iff.mp h
    cases kind <;> rfl
  | cons l ls ih =>
    rw [placesBefore_cons] at h
    have hlast : ((l :: ls).getLast?.map Link.kind).getD kind = (ls.getLast?.map Link.kind).getD l.kind := by
      rw [List.getLast?_cons]
      cases ls.getLast? <;> rfl
    rw [hlast, List.cons_append]
    by_cases hk : kind = .umbrella
    · rw [if_pos hk] at h
      obtain ⟨u, us, rfl⟩ : ∃ u us, names = u :: us := List.exists_cons_of_length_pos (by omega)
      have hrest : us.length = placesBefore l.kind ls := by
        rw [List.length_cons] at h
        omega
      rw [hk, List.cons_append, weaveFrom_umbrella_cons, weaveFrom_umbrella_cons,
        weaveFrom_cons (fun e => by cases e), weaveFrom_cons (fun e => by cases e), ih hrest]
      rfl
    · rw [if_neg hk, Nat.zero_add] at h
      rw [weaveFrom_cons fun e => absurd e hk, weaveFrom_cons fun e => absurd e hk, ih h]
      rfl

/-- No more names are read than there are umbrellas. -/
theorem Reads.length_users_le {e e' : Element} {taken : Bool} {steps : List Step}
    (h : Reads e taken steps e') :
    (Step.users steps).length ≤ places (e.kindLeft taken) (Step.links steps) := by
  induction h with
  | done => exact Nat.zero_le _
  | down _ _ ih =>
    rw [Step.users_down, Step.links_down, places_cons]
    exact Nat.le_trans ih (Nat.le_add_left _ _)
  | @called d cs user e' steps _ _ ih =>
    rw [Step.users_called, Step.links_called, List.length_cons]
    have hp : places .umbrella (Step.links steps) = places .scope (Step.links steps) + 1 := by
      rw [places, places, List.count_cons_self]
      simp
    change _ ≤ places .umbrella _
    have hi : (Step.users steps).length ≤ places .scope (Step.links steps) := ih
    omega

/-- **Names handed out from the top are woven as they were read.** -/
theorem Reads.weaveFrom_eq {e e' : Element} {taken : Bool} {steps : List Step}
    (h : Reads e taken steps e') (ht : TopDown (e.kindLeft taken) steps) :
    weaveFrom (e.kindLeft taken) (Step.links steps) (Step.users steps) =
      (Step.texts steps, []) := by
  induction h with
  | done e taken =>
    cases e.kindLeft taken <;> rfl
  | @down umbrella taken d cs name e e' steps _ _ ih =>
    obtain ⟨hfree, hrest⟩ := ht
    have hi : weaveFrom e.kind (Step.links steps) (Step.users steps) = (Step.texts steps, []) :=
      ih hrest
    rw [Step.links_down, Step.users_down, weaveFrom_cons hfree, hi]
    rfl
  | @called d cs user e' steps _ _ ih =>
    have hi : weaveFrom .scope (Step.links steps) (Step.users steps) = (Step.texts steps, []) :=
      ih ht
    rw [Step.links_called, Step.users_called]
    change weaveFrom .umbrella _ _ = _
    rw [weaveFrom_umbrella_cons, hi]
    rfl

/-- Only names that are those of links on the way could be woven as they were read without having been
handed out from the top. -/
theorem Reads.topDown_of_weaveFrom_eq {e e' : Element} {taken : Bool} {steps : List Step}
    (h : Reads e taken steps e')
    (hd : ∀ l ∈ Step.links steps, l.name.text ∉ Step.users steps)
    (hw : (weaveFrom (e.kindLeft taken) (Step.links steps) (Step.users steps)).1 =
      Step.texts steps) : TopDown (e.kindLeft taken) steps := by
  induction h with
  | done => exact trivial
  | @down umbrella taken d cs name e e' steps _ _ ih =>
    simp only [Step.links_down, Step.users_down, List.forall_mem_cons] at hd hw
    obtain ⟨hl, hd⟩ := hd
    have hfree : (Element.scope umbrella d cs).kindLeft taken = .umbrella →
        Step.users steps = [] := by
      intro hk
      rw [hk] at hw
      cases hu : Step.users steps with
      | nil => rfl
      | cons u us =>
        rw [hu, weaveFrom_umbrella_cons, Step.texts_cons, List.cons.injEq] at hw
        exact absurd (by rw [hu, hw.1]; exact List.mem_cons_self ..) hl
    rw [weaveFrom_cons hfree, Step.texts_cons, List.cons.injEq] at hw
    exact ⟨hfree, ih hd hw.2⟩
  | @called d cs user e' steps _ _ ih =>
    simp only [Step.links_called, Step.users_called, List.mem_cons, not_or] at hd hw
    change (weaveFrom .umbrella _ (user :: _)).1 = _ at hw
    rw [weaveFrom_umbrella_cons, Step.texts_cons, List.cons.injEq] at hw
    exact ih (fun l hl => (hd l hl).2) hw.2

/-- Where umbrellas are apart, none is left without a name before another takes one. -/
theorem Reads.topDown {e e' : Element} {taken : Bool} {steps : List Step}
    (h : Reads e taken steps e') (ha : e.UmbrellasApart) :
    TopDown (e.kindLeft taken) steps := by
  induction h with
  | done => exact trivial
  | @down umbrella taken d cs name e e' steps hc hrest ih =>
    have hl : Leads (.scope umbrella d cs) [⟨name, e.kind⟩] e := .down hc (.here e)
    refine ⟨fun hk => ?_, ih (ha.of_leads hl)⟩
    cases taken with
    | true => cases hk
    | false =>
      by_cases hu : Step.users steps = []
      · exact hu
      · obtain ⟨ls, e₂, hl₂, hk₂⟩ := hrest.exists_umbrella hu
        exact absurd hk₂ (ha [] _ _ e₂ (.here _) (.down hc hl₂) (by simp) hk)
  | called _ _ ih => exact ih ha

/-- An element that is no umbrella ends its path. -/
theorem weaveFrom_getLast? (kind : Kind) {ls : List Link} (names : List String) {l : Link}
    (h : ls.getLast? = some l) (hl : l.kind ≠ .umbrella) :
    (weaveFrom kind ls names).1.getLast? = some l.name.text := by
  induction ls generalizing kind names with
  | nil => cases h
  | cons l' ls ih =>
    have hnext : ∀ names, (l'.name.text :: (weaveFrom l'.kind ls names).1).getLast? =
        some l.name.text := by
      intro names
      cases ls with
      | nil =>
        obtain rfl : l' = l := Option.some.inj h
        rw [weaveFrom_nil_fst hl]
        rfl
      | cons l'' ls =>
        rw [List.getLast?_cons_cons] at h
        rw [List.getLast?_cons, ih _ _ h]
        rfl
    rcases takes_none_or_some kind names with hk | ⟨u, us, rfl, rfl⟩
    · rw [weaveFrom_cons hk]
      exact hnext names
    · rw [weaveFrom_umbrella_cons, weaveFrom_cons (fun e => by cases e), List.getLast?_cons,
        hnext us]
      rfl

/-! ### Paths below an element -/

theorem linksBelow?_append (ls ls' : List Link) : linksBelow? ls (ls ++ ls') = some ls' := by
  induction ls with
  | nil => cases ls' <;> rfl
  | cons l ls ih => simp [linksBelow?, ih]

theorem Site.below?_along (s : Site) (ls : List Link) : (s.along ls).below? s = some ls := by
  have htree : (s.along ls).tree = s.tree := rfl
  rw [Site.below?, if_pos htree]
  exact linksBelow?_append s.links ls

/-- The path of what links lead to. -/
theorem Site.pathFrom_along (s : Site) (ls : List Link) (names : List String) :
    (s.along ls).pathFrom s names =
      ((s.along ls).components s.last.kind ls names).map (join '.') := by
  unfold Site.pathFrom Site.wayFrom
  rw [s.below?_along ls]

theorem Site.components_eq_ok_iff {s : Site} {kind : Kind} {ls : List Link}
    {names cs : List String} :
    s.components kind ls names = .ok cs ↔ weaveFrom kind ls names = (cs, []) := by
  unfold Site.components
  dsimp only
  split
  · next he =>
    have he := List.isEmpty_iff.mp he
    exact ⟨fun h => (by cases h; exact Prod.ext rfl he), fun h => by rw [h]⟩
  · next he => exact ⟨fun h => (by cases h), fun h => absurd (by rw [h]; rfl) he⟩

/-- Without names every element has a path. -/
theorem Site.exists_path_nil (s : Site) : ∃ path, s.path [] = .ok path := by
  have hleft := weaveFrom_snd s.root.kind s.links []
  rw [List.drop_nil] at hleft
  refine ⟨join '.' (weaveFrom s.root.kind s.links []).1, ?_⟩
  rw [Site.path, Site.way, Site.components_eq_ok_iff.mpr (Prod.ext rfl hleft)]
  rfl

/-- **Whatever was read has a path**, of the same components though maybe in another order. -/
theorem Node.pathFrom_of_reads {n : Node} {e : Element} {steps : List Step}
    (hk : n.site.last.kind = n.element.kind) (h : Reads n.element false steps e) :
    ∃ cs, weaveFrom n.element.kind (Step.links steps) (Step.users steps) = (cs, []) ∧
      cs.Perm (Step.texts steps) ∧
      (n.site.along (Step.links steps)).pathFrom n.site (Step.users steps) =
        .ok (join '.' cs) := by
  obtain ⟨cs, left, hw⟩ : ∃ cs left, weaveFrom n.element.kind (Step.links steps)
      (Step.users steps) = (cs, left) := ⟨_, _, rfl⟩
  have hle : (Step.users steps).length ≤ places n.element.kind (Step.links steps) :=
    h.length_users_le
  have hleft : left = [] := by
    have hs := weaveFrom_snd n.element.kind (Step.links steps) (Step.users steps)
    rw [hw, List.drop_eq_nil_of_le hle] at hs
    exact hs
  subst hleft
  refine ⟨cs, hw, ?_, ?_⟩
  · have hp := weaveFrom_perm n.element.kind (Step.links steps) (Step.users steps)
    rw [hw, List.append_nil] at hp
    exact hp.trans (Step.texts_perm steps).symm
  · rw [Site.pathFrom_along, hk, Site.components_eq_ok_iff.mpr hw]
    rfl

/-- **The path of what was read from the top down is what was read.** -/
theorem Node.pathFrom_of_topDown {n : Node} {e : Element} {steps : List Step}
    (hk : n.site.last.kind = n.element.kind) (h : Reads n.element false steps e)
    (ht : TopDown n.element.kind steps) :
    (n.site.along (Step.links steps)).pathFrom n.site (Step.users steps) =
      .ok (join '.' (Step.texts steps)) := by
  have hw : weaveFrom n.element.kind (Step.links steps) (Step.users steps) =
      (Step.texts steps, []) := h.weaveFrom_eq ht
  rw [Site.pathFrom_along, hk, Site.components_eq_ok_iff.mpr hw]
  rfl

theorem Node.exists_pathFrom {n : Node} {key : String} {t : Target}
    (hk : n.site.last.kind = n.element.kind) (h : n.parse key = .ok t) :
    ∃ path, t.site.pathFrom n.site t.names = .ok path := by
  obtain ⟨-, steps, -, hreads, hsite, hnames⟩ := Node.parse_eq_ok_iff.mp h
  obtain ⟨cs, -, -, hpath⟩ := Node.pathFrom_of_reads hk hreads
  exact ⟨_, by rw [hsite, hnames, hpath]⟩

/-- The way to an option ends with a link to it. -/
theorem Reads.getLast?_links {e e' : Element} {taken : Bool} {steps : List Step}
    (h : Reads e taken steps e') (hne : steps ≠ []) (he' : e'.kind = .option) :
    ∃ l, (Step.links steps).getLast? = some l ∧ l.kind = .option := by
  have hkind := h.leads.kind_eq
  rw [he'] at hkind
  cases hl : (Step.links steps).getLast? with
  | some l =>
    rw [hl] at hkind
    exact ⟨l, rfl, hkind.symm⟩
  | none =>
    rw [hl] at hkind
    -- nothing can be read at an option
    cases h with
    | done => exact absurd rfl hne
    | @down umbrella => cases umbrella <;> cases hkind
    | called => cases hkind

/-- **The path of an option ends with its name.** -/
theorem Node.pathFrom_ends {n : Node} {key : String} {t : Target} {path : String}
    (hk : n.site.last.kind = n.element.kind) (h : n.parse key = .ok t)
    (ht : t.element.kind = .option) (hp : t.site.pathFrom n.site t.names = .ok path) :
    ∃ lead, ∃ name : Name, path = lead ++ name.text := by
  obtain ⟨-, steps, htexts, hreads, hsite, hnames⟩ := Node.parse_eq_ok_iff.mp h
  have hne : steps ≠ [] := by
    rintro rfl
    exact split_ne_nil key htexts.symm
  obtain ⟨l, hl, hlk⟩ := hreads.getLast?_links hne ht
  obtain ⟨cs, hw, -, hpath⟩ := Node.pathFrom_of_reads hk hreads
  rw [hsite, hnames, hpath] at hp
  have hlast := weaveFrom_getLast? n.element.kind (Step.users steps) hl (by rw [hlk]; decide)
  rw [hw] at hlast
  obtain ⟨lead, hlead⟩ := join_eq_append '.' hlast
  exact ⟨lead, l.name, by rw [← Except.ok.inj hp, hlead]⟩

end ScanJobs.Schema
