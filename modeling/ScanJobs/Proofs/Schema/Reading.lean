import ScanJobs.Schema.Key

/-! # Readings of keys

A key is read in steps: each component either names a child of the scope that was reached, or is a
name of the user that an umbrella takes. `Reads e taken steps e'` says that the steps lead from `e`
to `e'` by the rules of the schema, `taken` that `e` has its name already. Following a key is finding
its steps (`walk_eq_ok_iff`, `parse_eq_ok_iff`), and there is at most one way (`Reads.unique`). -/

namespace ScanJobs.Schema

open ScanJobs.Text

/-- One step of a reading. -/
inductive Step where
  | down (link : Link)
  /-- An umbrella takes a name of the user. -/
  | called (user : String)

namespace Step

/-- The component of the key that is read. -/
def text : Step → String
  | .down l => l.name.text
  | .called u => u

/-- The link that is followed. -/
def link? : Step → Option Link
  | .down l => some l
  | .called _ => none

/-- The name of the user that is taken. -/
def user? : Step → Option String
  | .down _ => none
  | .called u => some u

/-- The links on the way. -/
def links (steps : List Step) : List Link := steps.filterMap link?

/-- The user's names on the way. -/
def users (steps : List Step) : List String := steps.filterMap user?

/-- The components of the key. -/
def texts (steps : List Step) : List String := steps.map text

@[simp] theorem links_nil : links [] = [] := rfl
@[simp] theorem links_down (l : Link) (steps : List Step) :
    links (.down l :: steps) = l :: links steps := rfl
@[simp] theorem links_called (u : String) (steps : List Step) :
    links (.called u :: steps) = links steps := rfl
@[simp] theorem users_nil : users [] = [] := rfl
@[simp] theorem users_down (l : Link) (steps : List Step) :
    users (.down l :: steps) = users steps := rfl
@[simp] theorem users_called (u : String) (steps : List Step) :
    users (.called u :: steps) = u :: users steps := rfl
@[simp] theorem texts_nil : texts [] = [] := rfl
@[simp] theorem texts_cons (s : Step) (steps : List Step) :
    texts (s :: steps) = s.text :: texts steps := rfl

@[simp] theorem links_append (steps steps' : List Step) :
    links (steps ++ steps') = links steps ++ links steps' := List.filterMap_append ..
@[simp] theorem users_append (steps steps' : List Step) :
    users (steps ++ steps') = users steps ++ users steps' := List.filterMap_append ..
@[simp] theorem texts_append (steps steps' : List Step) :
    texts (steps ++ steps') = texts steps ++ texts steps' := List.map_append ..

/-- The steps along links alone. -/
def downs (ls : List Link) : List Step := ls.map down

@[simp] theorem links_downs (ls : List Link) : links (downs ls) = ls := by
  induction ls with
  | nil => rfl
  | cons l ls ih => rw [downs, List.map_cons, links_down, ← downs, ih]

@[simp] theorem users_downs (ls : List Link) : users (downs ls) = [] := by
  induction ls with
  | nil => rfl
  | cons l ls ih => rw [downs, List.map_cons, users_down, ← downs, ih]

@[simp] theorem texts_downs (ls : List Link) : texts (downs ls) = ls.map fun l => l.name.text := by
  rw [texts, downs, List.map_map]
  rfl

/-- A text that may be a component of a key. -/
def Proper (c : String) : Prop := isBlank c = false ∧ '.' ∉ c.toList

/-- Only the user's names may be improper. -/
theorem proper_of_users {steps : List Step} (h : ∀ u ∈ users steps, Proper u) :
    ∀ c ∈ texts steps, Proper c := by
  induction steps with
  | nil => simp
  | cons s steps ih =>
    cases s with
    | down l =>
      intro c hc
      rcases List.mem_cons.mp hc with rfl | hc
      · exact ⟨l.name.isBlank_text, l.name.noDot⟩
      · exact ih h c hc
    | called u =>
      intro c hc
      rcases List.mem_cons.mp hc with rfl | hc
      · exact h _ (List.mem_cons_self ..)
      · exact ih (fun u' hu' => h u' (List.mem_cons_of_mem _ hu')) c hc

theorem split_join_texts {steps : List Step} (hne : steps ≠ []) (h : ∀ u ∈ users steps, Proper u) :
    split '.' (join '.' (texts steps)) = texts steps :=
  split_join (by simpa [texts] using hne) fun c hc => (proper_of_users h c hc).2

end Step

/-- **The steps that lead from an element to another.** -/
inductive Reads : Element → Bool → List Step → Element → Prop where
  | done (e : Element) (taken : Bool) : Reads e taken [] e
  | down {umbrella taken : Bool} {d : Value} {cs : List (Name × Element)} {name : Name}
      {e e' : Element} {steps : List Step} (h : Element.findChild name.text cs = some (name, e))
      (rest : Reads e false steps e') :
      Reads (.scope umbrella d cs) taken (.down ⟨name, e.kind⟩ :: steps) e'
  | called {d : Value} {cs : List (Name × Element)} {user : String} {e' : Element}
      {steps : List Step} (h : Element.findChild user cs = none)
      (rest : Reads (.scope true d cs) true steps e') :
      Reads (.scope true d cs) false (.called user :: steps) e'

/-- The site that the links lead to. -/
def Site.along (s : Site) (ls : List Link) : Site := { s with links := s.links ++ ls }

@[simp] theorem Site.along_nil (s : Site) : s.along [] = s := by simp [Site.along]

theorem Site.along_cons (s : Site) (name : Name) (e : Element) (ls : List Link) :
    s.along (⟨name, e.kind⟩ :: ls) = (s.child name e).along ls := by
  simp [Site.along, Site.child]

theorem Element.findChild_text {c : String} {cs : List (Name × Element)} {x : Name × Element}
    (h : findChild c cs = some x) : x.1.text = c := by
  induction cs with
  | nil => simp [findChild] at h
  | cons y cs ih =>
    unfold findChild at h
    split at h
    · next hy => cases h; exact hy
    · exact ih h

theorem Element.findChild_mem {c : String} {cs : List (Name × Element)} {x : Name × Element}
    (h : findChild c cs = some x) : x ∈ cs := by
  induction cs with
  | nil => simp [findChild] at h
  | cons y cs ih =>
    unfold findChild at h
    split at h
    · cases h; exact List.mem_cons_self ..
    · exact List.mem_cons_of_mem _ (ih h)

/-! ### Following a key is finding its steps -/

theorem walk_of_reads {e e' : Element} {taken : Bool} {steps : List Step}
    (h : Reads e taken steps e') (key : String) (site : Site) :
    walk key site e taken (Step.texts steps) =
      .ok ⟨⟨site.along (Step.links steps), e'⟩, Step.users steps⟩ := by
  induction h generalizing site with
  | done e taken => simp [walk]
  | @down umbrella taken d cs name e e' steps hf _ ih =>
    rw [Step.texts_cons, Step.links_down, Step.users_down, Site.along_cons, ← ih]
    simp [walk, Step.text, hf]
  | called hf _ ih =>
    have h := ih site
    simp only [Step.texts_cons, Step.text, Step.users_called, Step.links_called]
    rw [walk]
    simp [hf, h, Except.map, Target.addName]

theorem reads_of_walk {key : String} {site : Site} {e : Element} {taken : Bool} {cs : List String}
    {t : Target} (h : walk key site e taken cs = .ok t) :
    ∃ steps, Step.texts steps = cs ∧ Reads e taken steps t.element ∧
      t.site = site.along (Step.links steps) ∧ t.names = Step.users steps := by
  induction cs generalizing site e taken t with
  | nil =>
    unfold walk at h
    cases h
    exact ⟨[], rfl, .done e taken, by simp, rfl⟩
  | cons c cs ih =>
    unfold walk at h
    split at h
    · cases h
    · next umbrella d children =>
      split at h
      · next name e' hf =>
        obtain ⟨steps, htexts, hreads, hsite, hnames⟩ := ih h
        have hname : name.text = c := Element.findChild_text hf
        refine ⟨.down ⟨name, e'.kind⟩ :: steps, ?_, ?_, ?_, hnames⟩
        · simp [Step.text, hname, htexts]
        · exact .down (hname ▸ hf) hreads
        · rw [hsite, Step.links_down, Site.along_cons]
      · next hf =>
        split at h
        · next hu =>
          obtain ⟨rfl, rfl⟩ : umbrella = true ∧ taken = false := by simpa using hu
          cases hw : walk key site (.scope true d children) true cs with
          | error f => rw [hw] at h; cases h
          | ok t' =>
            rw [hw] at h
            cases h
            obtain ⟨steps, htexts, hreads, hsite, hnames⟩ := ih hw
            exact ⟨.called c :: steps, by simp [Step.text, htexts], .called hf hreads, hsite,
              by simp [Target.addName, hnames]⟩
        · cases h

theorem walk_eq_ok_iff {key : String} {site : Site} {e : Element} {taken : Bool}
    {cs : List String} {t : Target} :
    walk key site e taken cs = .ok t ↔
      ∃ steps, Step.texts steps = cs ∧ Reads e taken steps t.element ∧
        t.site = site.along (Step.links steps) ∧ t.names = Step.users steps := by
  refine ⟨reads_of_walk, ?_⟩
  rintro ⟨steps, rfl, hreads, hsite, hnames⟩
  obtain ⟨⟨s, e'⟩, names⟩ := t
  cases hsite
  cases hnames
  exact walk_of_reads hreads key site

/-- **A key is accepted exactly if no component is blank and there are steps that read it**, and then
it leads where they lead. -/
theorem Node.parse_eq_ok_iff {n : Node} {key : String} {t : Target} :
    n.parse key = .ok t ↔ (∀ c ∈ split '.' key, isBlank c = false) ∧
      ∃ steps, Step.texts steps = split '.' key ∧ Reads n.element false steps t.element ∧
        t.site = n.site.along (Step.links steps) ∧ t.names = Step.users steps := by
  rw [← @walk_eq_ok_iff key]
  by_cases hb : (split '.' key).any isBlank = true
  · have hc : components key = .error (.malformed key) := if_pos hb
    obtain ⟨c, hmem, hcb⟩ := List.any_eq_true.mp hb
    constructor
    · intro h
      rw [Node.parse, hc] at h
      cases h
    · intro h
      rw [h.1 c hmem] at hcb
      cases hcb
  · have hc : components key = .ok (split '.' key) := if_neg hb
    have hall : ∀ c ∈ split '.' key, isBlank c = false := by simpa using hb
    rw [Node.parse, hc]
    exact ⟨fun h => ⟨hall, h⟩, fun h => h.2⟩

/-- **A reading spelled out is a key** that leads where the reading does. -/
theorem Node.parse_join_texts {n : Node} {e : Element} {steps : List Step}
    (h : Reads n.element false steps e) (hne : steps ≠ [])
    (hu : ∀ u ∈ Step.users steps, Step.Proper u) :
    n.parse (join '.' (Step.texts steps)) =
      .ok ⟨⟨n.site.along (Step.links steps), e⟩, Step.users steps⟩ := by
  rw [parse_eq_ok_iff, Step.split_join_texts hne hu]
  exact ⟨fun c hc => (Step.proper_of_users hu c hc).1, steps, rfl, h, rfl, rfl⟩

/-! ### There is one way to read a key -/

theorem Reads.unique {e e₁ e₂ : Element} {taken : Bool} {steps₁ steps₂ : List Step}
    (h₁ : Reads e taken steps₁ e₁) (h₂ : Reads e taken steps₂ e₂)
    (h : Step.texts steps₁ = Step.texts steps₂) : steps₁ = steps₂ ∧ e₁ = e₂ := by
  induction h₁ generalizing steps₂ with
  | done e taken =>
    cases h₂ with
    | done => exact ⟨rfl, rfl⟩
    | down => simp at h
    | called => simp at h
  | down hf _ ih =>
    cases h₂ with
    | done => simp at h
    | down hf' hr =>
      simp only [Step.texts_cons, List.cons.injEq, Step.text] at h
      rw [h.1, hf'] at hf
      cases hf
      obtain ⟨rfl, rfl⟩ := ih hr h.2
      exact ⟨rfl, rfl⟩
    | called hf' =>
      simp only [Step.texts_cons, List.cons.injEq, Step.text] at h
      rw [h.1, hf'] at hf
      cases hf
  | called hf _ ih =>
    cases h₂ with
    | done => simp at h
    | down hf' =>
      simp only [Step.texts_cons, List.cons.injEq, Step.text] at h
      rw [h.1, hf'] at hf
      cases hf
    | called hf' hr =>
      simp only [Step.texts_cons, List.cons.injEq, Step.text] at h
      obtain ⟨rfl, hs⟩ := h
      obtain ⟨rfl, rfl⟩ := ih hr hs
      exact ⟨rfl, rfl⟩

end ScanJobs.Schema
