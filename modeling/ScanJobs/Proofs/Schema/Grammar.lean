import ScanJobs.Failure.Basic
import ScanJobs.Proofs.Schema.Standing

/-! # The grammar of keys

A key is a walk down the schema. A component that names a child of the scope that was reached enters
the child; any other is a name of the user, which an umbrella takes, once since it was entered. The
walk knows nothing of the flag that following a key carries along: that the umbrella has its name
already is told by the steps that lead to it (`OnceEach`). -/

namespace ScanJobs.Schema

open ScanJobs.Text

/-- **One component**, read at an element, with the element that is reached. -/
inductive Follows : Element → Step → Element → Prop where
  | down {e e' : Element} {name : Name} (h : e.child? name.text = some (name, e')) :
      Follows e (.down ⟨name, e'.kind⟩) e'
  | called {e : Element} {user : String} (hu : e.kind = .umbrella) (h : e.child? user = none) :
      Follows e (.called user) e

/-- Components read one after the other. -/
inductive Walk : Element → List Step → Element → Prop where
  | here (e : Element) : Walk e [] e
  | step {e e' e'' : Element} {s : Step} {steps : List Step} (h : Follows e s e')
      (rest : Walk e' steps e'') : Walk e (s :: steps) e''

namespace Step

/-- A child is entered before the first name. -/
def Fresh (steps : List Step) : Prop :=
  ∀ between user after, steps = between ++ .called user :: after → ∃ l, .down l ∈ between

/-- Between two names a child is entered, so that each is the only one since. -/
def OnceEach (steps : List Step) : Prop :=
  ∀ before user rest, steps = before ++ .called user :: rest → Fresh rest

theorem fresh_nil : Fresh [] := fun between user after h => by simp at h

theorem fresh_down (l : Link) (steps : List Step) : Fresh (.down l :: steps) := by
  intro between user after h
  cases between with
  | nil => simp at h
  | cons s between =>
    have hs : Step.down l = s := (List.cons.inj h).1
    exact ⟨l, hs ▸ List.mem_cons_self ..⟩

theorem not_fresh_called (user : String) (steps : List Step) : ¬Fresh (.called user :: steps) := by
  intro h
  obtain ⟨l, hl⟩ := h [] user steps rfl
  cases hl

theorem onceEach_nil : OnceEach [] := fun before user rest h => by simp at h

/-- What holds at every name of a walk holds at the first and further on. -/
theorem onceEach_cons {s : Step} {steps : List Step} :
    OnceEach (s :: steps) ↔ (∀ user, s = .called user → Fresh steps) ∧ OnceEach steps := by
  constructor
  · intro h
    refine ⟨fun user hs => h [] user steps (by rw [hs, List.nil_append]), ?_⟩
    intro before user rest hsteps
    exact h (s :: before) user rest (by rw [hsteps, List.cons_append])
  · rintro ⟨hfirst, hrest⟩ before user rest hsteps
    cases before with
    | nil =>
      obtain ⟨hs, rfl⟩ := List.cons.inj hsteps
      exact hfirst user hs
    | cons s' before => exact hrest before user rest (List.cons.inj hsteps).2

@[simp] theorem onceEach_down (l : Link) (steps : List Step) :
    OnceEach (.down l :: steps) ↔ OnceEach steps := by
  simp [onceEach_cons]

@[simp] theorem onceEach_called (user : String) (steps : List Step) :
    OnceEach (.called user :: steps) ↔ Fresh steps ∧ OnceEach steps := by
  simp [onceEach_cons]

end Step

open Step

/-! ### Walks from a scope and from an option -/

theorem Follows.down_iff {e e' : Element} {l : Link} :
    Follows e (.down l) e' ↔ e.child? l.name.text = some (l.name, e') ∧ l.kind = e'.kind := by
  constructor
  · intro h
    cases h with
    | down h => exact ⟨h, rfl⟩
  · rintro ⟨h, hk⟩
    obtain ⟨name, kind⟩ := l
    obtain rfl : kind = e'.kind := hk
    exact .down h

/-- **Nothing follows an option.** -/
theorem Follows.not_option {e e' : Element} {s : Step} (h : Follows e s e') :
    e.isOption = false := by
  cases e with
  | scope => rfl
  | option =>
    cases h with
    | down h => simp [Element.child?, Element.children, Element.findChild] at h
    | called hu => simp [Element.kind] at hu

/-- A walk that has come to an option ends there. -/
theorem Walk.option_last {e e₁ e₂ : Element} {steps steps' : List Step}
    (h : Walk e (steps ++ steps') e₂) (h₁ : Walk e steps e₁) (ho : e₁.isOption = true) :
    steps' = [] := by
  induction h₁ with
  | here e =>
    cases h with
    | here => rfl
    | step hf => rw [hf.not_option] at ho; cases ho
  | step hf _ ih =>
    cases h with
    | step hf' hrest =>
      refine ih ?_ ho
      cases hf with
      | down hc =>
        obtain ⟨hc', -⟩ := Follows.down_iff.mp hf'
        obtain ⟨-, rfl⟩ := Prod.mk.inj (Option.some.inj (hc.symm.trans hc'))
        exact hrest
      | called =>
        cases hf' with
        | called => exact hrest

/-! ### Following a key is walking -/

/-- **The flag says what the steps before say**: a way that is read is a walk on which each umbrella
takes one name, and which goes down first if the name is taken already. -/
theorem reads_iff_walk {e e' : Element} {taken : Bool} {steps : List Step} :
    Reads e taken steps e' ↔
      Walk e steps e' ∧ OnceEach steps ∧ (taken = true → Fresh steps) := by
  constructor
  · intro h
    induction h with
    | done e taken => exact ⟨.here e, onceEach_nil, fun _ => fresh_nil⟩
    | down hc _ ih =>
      obtain ⟨hwalk, honce, -⟩ := ih
      exact ⟨.step (.down hc) hwalk, (onceEach_down ..).mpr honce, fun _ => fresh_down _ _⟩
    | called hc _ ih =>
      obtain ⟨hwalk, honce, hfresh⟩ := ih
      exact ⟨.step (.called rfl hc) hwalk, (onceEach_called ..).mpr ⟨hfresh rfl, honce⟩, nofun⟩
  · rintro ⟨hwalk, honce, hfresh⟩
    induction hwalk generalizing taken with
    | here e => exact .done e taken
    | @step e e₁ _ s steps hf _ ih =>
      have hscope := hf.not_option
      cases e with
      | option => cases hscope
      | scope umbrella d children =>
        cases hf with
        | down hc => exact .down hc (ih ((onceEach_down ..).mp honce) nofun)
        | called hu hc =>
          obtain ⟨hrest, honce⟩ := (onceEach_called ..).mp honce
          have htaken : taken = false := by
            cases taken with
            | false => rfl
            | true => exact absurd (hfresh rfl) (not_fresh_called _ _)
          have humbrella : umbrella = true := by simpa [Element.kind] using hu
          subst htaken humbrella
          exact .called hc (ih honce fun _ => hrest)

/-- **The steps spell a key**, from an element to the one at their end. -/
structure Spells (e : Element) (key : String) (steps : List Step) (e' : Element) : Prop where
  texts : Step.texts steps = split '.' key
  walk : Walk e steps e'
  once : OnceEach steps

namespace Spells

variable {e e₁ e₂ : Element} {key : String} {steps steps₁ steps₂ : List Step}

theorem reads (h : Spells e key steps e₁) : Reads e false steps e₁ :=
  reads_iff_walk.mpr ⟨h.walk, h.once, nofun⟩

theorem of_reads (h : Reads e false steps e₁) (htexts : Step.texts steps = split '.' key) :
    Spells e key steps e₁ := by
  obtain ⟨hwalk, honce, -⟩ := reads_iff_walk.mp h
  exact ⟨htexts, hwalk, honce⟩

/-- **A key is spelled in one way.** -/
theorem unique (h₁ : Spells e key steps₁ e₁) (h₂ : Spells e key steps₂ e₂) :
    steps₁ = steps₂ ∧ e₁ = e₂ :=
  h₁.reads.unique h₂.reads (h₁.texts.trans h₂.texts.symm)

end Spells

/-- What the steps lead to from an element, as it is answered. -/
def Node.target (n : Node) (steps : List Step) (e : Element) : Target :=
  ⟨⟨n.site.along (Step.links steps), e⟩, Step.users steps⟩

theorem Node.parse_eq_ok_iff_spells {n : Node} {key : String} {t : Target} :
    n.parse key = .ok t ↔ (∀ c ∈ split '.' key, isBlank c = false) ∧
      ∃ steps, Spells n.element key steps t.element ∧ t = n.target steps t.element := by
  rw [Node.parse_eq_ok_iff]
  refine and_congr_right fun _ => exists_congr fun steps => ?_
  constructor
  · rintro ⟨htexts, hreads, hsite, hnames⟩
    refine ⟨.of_reads hreads htexts, ?_⟩
    obtain ⟨⟨site, e⟩, names⟩ := t
    obtain rfl : site = n.site.along (Step.links steps) := hsite
    obtain rfl : names = Step.users steps := hnames
    rfl
  · rintro ⟨hspells, ht⟩
    exact ⟨hspells.texts, hspells.reads, congrArg (fun t : Target => t.site) ht,
      congrArg Target.names ht⟩

/-- A key that leads nowhere is told in the fault. -/
theorem walk_error_key {key : String} {site : Site} {e : Element} {taken : Bool} {cs : List String}
    {f : KeyFault} (h : Schema.walk key site e taken cs = .error f) : f.key = key := by
  induction cs generalizing site e taken with
  | nil => cases h
  | cons c cs ih =>
    unfold Schema.walk at h
    split at h
    · cases h
      rfl
    · next umbrella d children =>
      split at h
      · exact ih h
      · split at h
        · cases hw : Schema.walk key site (.scope umbrella d children) true cs with
          | ok t => rw [hw] at h; cases h
          | error f' =>
            rw [hw] at h
            cases h
            exact ih hw
        · cases h
          rfl

theorem Node.parse_error_key {n : Node} {key : String} {f : KeyFault}
    (h : n.parse key = .error f) : f.key = key := by
  unfold Node.parse at h
  cases hc : Schema.components key with
  | ok cs =>
    rw [hc] at h
    exact walk_error_key h
  | error f' =>
    rw [hc] at h
    obtain rfl : f' = f := Except.error.inj h
    simp only [Schema.components] at hc
    split at hc
    · cases hc
      rfl
    · cases hc

/-- **A key is accepted exactly if the grammar spells it** and no component is blank. It is spelled by
one walk, which ends at the first option it comes to; it leads where that walk leads, with the user's
names in the order they were taken. Any other key is refused by a failure to parse a configuration
that carries the key. -/
theorem parse_iff_spelled (n : Node) (key : String) :
    ((∃ t, n.parse key = .ok t) ↔ (∀ c ∈ split '.' key, isBlank c = false) ∧
      ∃ steps e, Spells n.element key steps e) ∧
    (∀ steps e, Spells n.element key steps e →
      (∀ steps' e', Spells n.element key steps' e' → steps' = steps ∧ e' = e) ∧
      (∀ first rest e₁, steps = first ++ rest → Walk n.element first e₁ → e₁.isOption = true →
        rest = []) ∧
      ∀ t, n.parse key = .ok t → t = n.target steps e) ∧
    ((¬∃ t, n.parse key = .ok t) → ∃ f, n.parse key = .error f ∧ f.key = key ∧
      (Failure.config (.strayKey f)).kind = .configurationParse ∧
      (Failure.config (.strayKey f)).configKey? = some key) := by
  refine ⟨⟨?accepted, ?spelled⟩, fun steps e h => ⟨fun steps' e' h' => h'.unique h, ?_, ?_⟩, ?refused⟩
  case accepted =>
    rintro ⟨t, ht⟩
    obtain ⟨hblank, steps, hspells, -⟩ := Node.parse_eq_ok_iff_spells.mp ht
    exact ⟨hblank, steps, t.element, hspells⟩
  case spelled =>
    rintro ⟨hblank, steps, e, hspells⟩
    exact ⟨n.target steps e, Node.parse_eq_ok_iff_spells.mpr ⟨hblank, steps, hspells, rfl⟩⟩
  · rintro first rest e₁ rfl hfirst ho
    exact h.walk.option_last hfirst ho
  · intro t ht
    obtain ⟨-, steps', hspells, htarget⟩ := Node.parse_eq_ok_iff_spells.mp ht
    obtain ⟨rfl, he⟩ := hspells.unique h
    rw [htarget, he]
  case refused =>
    intro hnone
    cases hp : n.parse key with
    | ok t => exact absurd ⟨t, hp⟩ hnone
    | error f =>
      have hkey := Node.parse_error_key hp
      exact ⟨f, rfl, hkey, rfl, congrArg some hkey⟩

/-- The inner umbrella is entered anew, so it takes a name after the outer one has; none takes two. -/
example : (nestedRoot.parse "u.a.u.x").toOption.map Target.names = some ["u", "u"] ∧
    (nestedRoot.parse "u.u.x").toOption.isNone = true := by
  decide

end ScanJobs.Schema
