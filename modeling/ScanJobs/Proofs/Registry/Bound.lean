import ScanJobs.Proofs.Fallible
import ScanJobs.Proofs.Table
import ScanJobs.Proofs.Text.Solid
import ScanJobs.Registry.Library
import ScanJobs.Registry.Preflight

/-! # What a name leads to

Names are bound without blanks at their ends (`Registry.Stripped`), and no import changes that. A name
that was looked up is bound where it was found (`Host.resolve_ok`), so a job that was checked before it
is submitted has a bound name (`Host.preflight_ok`). A name that is bound is found as things stand
(`Host.resolve_of_bound`). -/

namespace ScanJobs

open Text

namespace Factory

/-- A class is equal to itself only. -/
theorem key?_eq_jobClass_iff {f : Factory} {c : JobClass} :
    f.key? = some (.jobClass c) ↔ f = .jobClass c := by
  constructor
  · intro h
    cases f with
    | jobClass d =>
      cases h
      rfl
    | function number makes => cases h
    | object number type key makes => cases key <;> cases h
  · rintro rfl
    rfl

end Factory

namespace Registry

/-- **No bound name has blanks at its ends**, or is blank. -/
def Stripped (r : Registry) : Prop :=
  ∀ name f, r.get? name = some f → Solid name

theorem stripped_empty : empty.Stripped :=
  nofun

theorem Stripped.bind {r : Registry} (h : r.Stripped) {name : String} (hname : Solid name)
    (f : Factory) : (r.bind name f).Stripped := by
  intro n g hg
  rw [get?_bind] at hg
  split at hg
  · next hn => exact hn ▸ hname
  · exact h n g hg

/-- A name that is bound already may be bound again. -/
theorem bind_of_get? {r : Registry} {n : String} {f : Factory} (h : r.get? n = some f) :
    r.bind n f = r := by
  unfold bind
  rw [Table.insert_of_get? h]

theorem Stripped.free {r : Registry} (h : r.Stripped) (name : String) : (r.free name).Stripped := by
  intro n g hg
  rw [get?_free] at hg
  split at hg
  · cases hg
  · exact h n g hg

/-! ### Registering -/

/-- The registry in which a name is bound to a factory and remembered as its last one. -/
def remembering (r : Registry) (n : String) (f : Factory) (k : Factory.Key) : Registry :=
  ⟨r.factories.insert n f, r.lastNames.insert k n⟩

/-- The factory may be bound to the name: this is not blank, and not bound to another one. -/
structure Binds (r : Registry) (f : Factory) (n : String) : Prop where
  solid : Solid n
  free : ∀ g, r.get? n = some g → g = f

/-- **What registering comes to**: it is refused and nothing is done, the name is bound and remembered, or
the name is bound and it then shows that the factory has no hash. -/
inductive Registers (r : Registry) (factory : Option Factory) (name : Option String) :
    Except Failure String → Registry → Prop where
  | refused {e : Failure} (hkind : e.kind = .value)
      (h : ∀ f, factory = some f → ¬ Binds r f (nameToBind f name)) :
      Registers r factory name (.error e) r
  | remembered {f : Factory} {k : Factory.Key} (hfactory : factory = some f) (hkey : f.key? = some k)
      (h : Binds r f (nameToBind f name)) :
      Registers r factory name (.ok (nameToBind f name)) (r.remembering (nameToBind f name) f k)
  | stuck {f : Factory} (hfactory : factory = some f) (hkey : f.key? = none)
      (h : Binds r f (nameToBind f name)) :
      Registers r factory name (.error f.unhashable) (r.bind (nameToBind f name) f)

theorem solid_nameToBind {f : Factory} {name : Option String}
    (h : isBlank (nameToBind f name) = false) : Solid (nameToBind f name) := by
  unfold nameToBind at h ⊢
  rw [isBlank_strip] at h
  exact solid_strip h

theorem register_on_of_binds {r : Registry} {f : Factory} {name : Option String}
    (h : Binds r f (nameToBind f name)) :
    (register (some f) name).on r = (Act.change (fun r => r.bind (nameToBind f name) f) >>= fun _ =>
      Act.tryChange (fun r => r.remember f (nameToBind f name)) >>= fun _ =>
        pure (nameToBind f name)).on r := by
  have hall : (r.factories.get? (nameToBind f name)).all (· = f) = true := by
    rw [Option.all_eq_true]
    exact fun g hg => decide_eq_true (h.free g hg)
  unfold register
  dsimp only
  rw [h.solid.isBlank_eq, if_neg Bool.false_ne_true, Act.on_read_bind, if_pos hall]

theorem register_on_of_key {r : Registry} {f : Factory} {name : Option String} {k : Factory.Key}
    (hkey : f.key? = some k) (h : Binds r f (nameToBind f name)) :
    (register (some f) name).on r =
      (.ok (nameToBind f name), r.remembering (nameToBind f name) f k) := by
  have hremember : (Act.tryChange fun r => r.remember f (nameToBind f name)).on
      (r.bind (nameToBind f name) f) = (.ok (), r.remembering (nameToBind f name) f k) := by
    rw [Act.on_tryChange, remember, hkey]
    rfl
  rw [register_on_of_binds h, Act.on_bind_ok (Act.on_change ..), Act.on_bind_ok hremember]
  rfl

theorem register_on_of_no_key {r : Registry} {f : Factory} {name : Option String}
    (hkey : f.key? = none) (h : Binds r f (nameToBind f name)) :
    (register (some f) name).on r = (.error f.unhashable, r.bind (nameToBind f name) f) := by
  rw [register_on_of_binds h, Act.on_bind_ok (Act.on_change ..)]
  refine Act.on_bind_error ?_
  rw [Act.on_tryChange, remember, hkey]

theorem registers_on (r : Registry) (factory : Option Factory) (name : Option String) :
    Registers r factory name ((register factory name).on r).1 ((register factory name).on r).2 := by
  cases factory with
  | none => exact .refused rfl nofun
  | some f =>
    by_cases h : Binds r f (nameToBind f name)
    · cases hkey : f.key? with
      | some k =>
        rw [register_on_of_key hkey h]
        exact .remembered rfl hkey h
      | none =>
        rw [register_on_of_no_key hkey h]
        exact .stuck rfl hkey h
    · have hno : ∀ g, some f = some g → ¬ Binds r g (nameToBind g name) := by
        rintro g ⟨⟩
        exact h
      unfold register
      dsimp only
      split
      · exact .refused rfl hno
      · next hblank =>
        rw [Act.on_read_bind]
        split
        · next hall =>
          -- what is bound was stripped, and is not blank
          have hsolid := solid_nameToBind (Bool.not_eq_true _ ▸ hblank)
          refine absurd ⟨hsolid, fun g hg => ?_⟩ h
          rw [Option.all_eq_true] at hall
          exact of_decide_eq_true (hall g hg)
        · exact .refused rfl hno

/-- **A factory is registered** under a name that is not blank and was not bound to another one, if it has
a hash. -/
theorem register_eq_ok_iff {r r' : Registry} {factory : Option Factory} {name : Option String}
    {n : String} : (register factory name).on r = (.ok n, r') ↔
      ∃ f k, factory = some f ∧ f.key? = some k ∧ n = nameToBind f name ∧ Binds r f n ∧
        r' = r.remembering n f k := by
  constructor
  · intro h
    have hregisters := registers_on r factory name
    rw [h] at hregisters
    cases hregisters with
    | remembered hfactory hkey hbinds => exact ⟨_, _, hfactory, hkey, rfl, hbinds, rfl⟩
  · rintro ⟨f, k, rfl, hkey, rfl, hbinds, rfl⟩
    exact register_on_of_key hkey hbinds

/-- **Registering keeps names stripped.** -/
theorem Stripped.register {r : Registry} (h : r.Stripped) (factory : Option Factory)
    (name : Option String) : ((Registry.register factory name).on r).2.Stripped := by
  have hregisters := registers_on r factory name
  generalize ((Registry.register factory name).on r).1 = result at hregisters
  generalize ((Registry.register factory name).on r).2 = r' at hregisters ⊢
  cases hregisters with
  | refused => exact h
  | remembered _ _ hbinds => exact h.bind hbinds.solid _
  | stuck _ _ hbinds => exact h.bind hbinds.solid _

end Registry

namespace Library

theorem registry_setRegistry (l : Library) (i k : Nat) (r : Registry) :
    (l.setRegistry i r).registry k =
      if i = k ∧ i < l.registries.length then r else l.registry k := by
  unfold setRegistry registry
  rw [List.getD_eq_getElem?_getD, List.getD_eq_getElem?_getD, List.getElem?_set]
  by_cases hik : i = k
  · subst hik
    by_cases hlt : i < l.registries.length
    · simp [hlt]
    · simp [hlt]
  · simp [hik]

variable {P : Registry → Prop}

theorem keeps_register (hP : ∀ r f name, P r → P ((Registry.register f name).on r).2) (i k : Nat)
    (f : Option Factory) (name : Option String) :
    (register i f name).Keeps fun l => P (l.registry k) := by
  intro l hl
  rw [register, onRegistry, Act.on_zoom]
  dsimp only
  rw [registry_setRegistry]
  split
  · next hi => exact hP _ f name (hi.1 ▸ hl)
  · exact hl

/-- **Importing a module keeps what registering keeps.** -/
theorem keeps_importModule (hP : ∀ r f name, P r → P ((Registry.register f name).on r).2) (k : Nat)
    (name : String) : (importModule name).Keeps fun l => P (l.registry k) := by
  have henter : ∀ r, (enter r).Keeps fun l => P (l.registry k) := by
    intro r
    refine .bind (Act.keeps_ofExcept _) fun i => ?_
    have hregister : (Act.ofExcept r.name >>= fun n =>
        register i r.factory n >>= fun _ => pure () : Act Library Unit).Keeps
          fun l => P (l.registry k) :=
      .bind (Act.keeps_ofExcept _) fun n =>
        .bind (keeps_register hP i k _ n) fun _ => Act.keeps_pure ()
    split
    · exact .bind (Act.keeps_throw _) fun _ => hregister
    · exact hregister
  have hmodule : ∀ m, (runModule name m).Keeps fun l => P (l.registry k) := by
    intro m
    refine .bind (Act.keeps_forM henter m.registers) fun _ => ?_
    cases m.raises with
    | none => exact fun _ hl => hl
    | some f => exact Act.keeps_throw _
  refine .bind (fun _ hl => hl) fun _ => .bind (Act.keeps_read _) fun l => ?_
  split
  · exact Act.keeps_pure ()
  · split
    · exact Act.keeps_throw _
    · exact hmodule _

theorem stripped_importModule (k : Nat) (name : String) :
    (importModule name).Keeps fun l => (l.registry k).Stripped :=
  keeps_importModule (fun _ f n hr => hr.register f n) k name

end Library

namespace Host

variable {σ : Type} {h : Host σ} {Q : σ → Prop}

/-- **Looking up a name keeps what importing modules keeps.** -/
theorem keeps_resolve (himport : ∀ m, (h.importModule m).Keeps Q) (name : String)
    (owner : Option String) : (h.resolve name owner).Keeps Q := by
  have hfirst : ∀ ms, (h.importFirst ms).Keeps Q := by
    intro ms
    induction ms with
    | nil => exact Act.keeps_pure ()
    | cons m ms ih =>
      refine .bind (himport m).attempt fun result => ?_
      cases result with
      | ok u => exact Act.keeps_pure ()
      | error f =>
        refine .bind (Act.keeps_ofExcept _) fun absent => ?_
        cases absent with
        | true => exact ih
        | false => exact Act.keeps_throw f
  have howner : ∀ m, (h.importOwner (.text name) m).Keeps Q := by
    intro m
    refine .bind (himport m).attempt fun result => ?_
    cases result with
    | ok u => exact Act.keeps_pure ()
    | error f => exact Act.keeps_throw _
  have hfor : (h.importFor name owner).Keeps Q := by
    cases owner with
    | none => exact hfirst _
    | some m =>
      unfold importFor
      dsimp only
      split
      · exact hfirst _
      · exact howner m
  refine .bind (Act.keeps_read _) fun r => ?_
  cases r.get? name with
  | some f => exact Act.keeps_pure f
  | none =>
    refine .bind hfor fun _ => .bind (Act.keeps_read _) fun r' => ?_
    cases r'.get? name with
    | some f => exact Act.keeps_pure f
    | none => exact Act.keeps_throw _

/-- **A name that is bound is looked up without an import.** -/
theorem resolve_of_bound {name : String} {f : Factory} {w : σ}
    (hname : (h.registry w).get? name = some f) (owner : Option String) :
    (h.resolve name owner).on w = (.ok f, w) := by
  rw [resolve, Act.on_read_bind, hname]
  rfl

theorem create_of_bound {name : String} {f : Factory} {w : σ}
    (hname : (h.registry w).get? name = some f) (owner : Option String) :
    (h.create name owner).on w = (h.newJob f.makes, w) := by
  rw [create, Act.on_bind_ok (resolve_of_bound hname owner), Act.on_ofExcept]

/-- **A job whose name leads to its class is fit to be submitted.** -/
theorem preflight_of_bound {c : JobClass} {j : Journal σ}
    (hname : (h.registry j.world).get? ((h.registry j.world).nameFor c) = some (.jobClass c)) :
    (h.preflight (some c)).on j = (.ok ((h.registry j.world).nameFor c), j) := by
  have hresolve : (Act.attempt (Journal.onWorld
      (h.resolve ((h.registry j.world).nameFor c) none))).on j = (.ok (.ok (.jobClass c)), j) := by
    rw [Act.on_attempt, Journal.onWorld, Act.on_zoom, resolve_of_bound hname]
  have hlocate : (h.locate ((h.registry j.world).nameFor c)).on j = (.ok (.jobClass c), j) := by
    rw [locate, Act.on_bind_ok hresolve]
    rfl
  rw [preflight, Act.on_read_bind, Act.on_bind_ok hlocate]
  dsimp only
  rw [if_pos rfl]
  rfl

/-- **A name that was found is bound.** -/
theorem resolve_ok {name : String} {owner : Option String} {w w' : σ} {f : Factory}
    (hr : (h.resolve name owner).on w = (.ok f, w')) : (h.registry w').get? name = some f := by
  rw [resolve, Act.on_read_bind] at hr
  split at hr
  · next g hg =>
    cases hr
    exact hg
  · rcases Act.on_bind_cases hr with ⟨e, -, he⟩ | ⟨u, w₁, -, hr⟩
    · cases he
    · rw [Act.on_read_bind] at hr
      split at hr
      · next g hg =>
        cases hr
        exact hg
      · cases hr

theorem locate_ok {name : String} {j j' : Journal σ} {f : Factory}
    (hl : (h.locate name).on j = (.ok f, j')) :
    (h.resolve name none).on j.world = (.ok f, j'.world) := by
  rcases Act.on_bind_cases hl with ⟨e, -, he⟩ | ⟨result, j₁, hattempt, hl⟩
  · cases he
  · have hfound : (Act.attempt (Journal.onWorld (h.resolve name none))).on j =
        (.ok ((h.resolve name none).on j.world).1,
          { j with world := ((h.resolve name none).on j.world).2 }) := rfl
    obtain ⟨hresult, rfl⟩ := Prod.mk.inj (hfound.symm.trans hattempt)
    obtain rfl := Except.ok.inj hresult
    cases hr : (h.resolve name none).on j.world with
    | mk result w =>
      rw [hr] at hl
      cases result with
      | ok g =>
        obtain ⟨hg, rfl⟩ := Prod.mk.inj hl
        rw [Except.ok.inj hg]
      | error e =>
        -- whether it is noted or not
        dsimp only at hl
        split at hl
        · rcases Act.on_bind_cases hl with ⟨e', -, he'⟩ | ⟨u, j₂, -, hl⟩
          · cases he'
          · cases hl
        · cases hl

/-- **The name of a job that was checked was found**, and is that of its class or of what is no class. -/
theorem preflight_ok {c : JobClass} {name : String} {j j' : Journal σ}
    (hp : (h.preflight (some c)).on j = (.ok name, j')) :
    ∃ f, (h.resolve name none).on j.world = (.ok f, j'.world) ∧ ∀ d, f = .jobClass d → d = c := by
  rw [preflight, Act.on_read_bind] at hp
  rcases Act.on_bind_cases hp with ⟨e, -, he⟩ | ⟨f, j₁, hlocate, hp⟩
  · cases he
  · refine ⟨f, ?_⟩
    cases f with
    | function number makes =>
      obtain ⟨hname, rfl⟩ := Prod.mk.inj hp
      rw [← Except.ok.inj hname]
      exact ⟨locate_ok hlocate, nofun⟩
    | object number type key makes =>
      obtain ⟨hname, rfl⟩ := Prod.mk.inj hp
      rw [← Except.ok.inj hname]
      exact ⟨locate_ok hlocate, nofun⟩
    | jobClass d =>
      dsimp only at hp
      split at hp
      · next hd =>
        obtain ⟨hname, rfl⟩ := Prod.mk.inj hp
        rw [← Except.ok.inj hname]
        refine ⟨locate_ok hlocate, fun d' hd' => ?_⟩
        cases hd'
        exact hd
      · rcases Act.on_bind_cases hp with ⟨e, -, he⟩ | ⟨u, j₂, -, hp⟩
        · cases he
        · cases hp

end Host

end ScanJobs
