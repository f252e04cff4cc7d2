import ScanJobs.Proofs.Registry.Bound
import Mathlib.Data.List.Induction

/-! # Registries after calls

A registry is changed by calls that register factories and free names; some calls fail. Which name is
remembered is told by the last call that touched a factory equal to the one that is asked for
(`lastName_eq_some_iff`): when any name of such a factory is freed, the name is forgotten, though the
factory may have others. A class is then found under its own name only (`found_iff_registered_last`).

What is handed out under a remembered name is the factory that was registered last among those that are
equal. A call that fails changes nothing, except that a factory without a hash stays bound
(`faithful_after_calls`). -/

namespace ScanJobs.Registry

open Text

/-- A call on a registry. -/
inductive Call where
  | register (factory : Option Factory) (name : Option String)
  | unregister (name : String)
deriving DecidableEq

/-- What a call does. -/
def Call.act : Call → Act Registry Unit
  | .register factory name => Registry.register factory name >>= fun _ => pure ()
  | .unregister name => Registry.unregister name

/-- The registry after one call. -/
def Call.next (c : Call) (r : Registry) : Registry :=
  (c.act.on r).2

/-- **The registry after calls**, each of which may have failed. -/
def after (calls : List Call) (r : Registry) : Registry :=
  calls.foldl (fun r c => c.next r) r

theorem after_append (calls calls' : List Call) (r : Registry) :
    after (calls ++ calls') r = after calls' (after calls r) :=
  List.foldl_append ..

theorem after_snoc (calls : List Call) (c : Call) (r : Registry) :
    after (calls ++ [c]) r = c.next (after calls r) :=
  after_append ..

/-! ### One call -/

theorem next_register (r : Registry) (factory : Option Factory) (name : Option String) :
    (Call.register factory name).next r = ((register factory name).on r).2 := by
  rw [Call.next, Call.act, Act.on_bind]
  cases (register factory name).on r with
  | mk result r' => cases result <;> rfl

/-- **What a call does to a registry.** It fails and does nothing, binds a name that was free or bound to the
factory before, frees a name, or finds nothing to free. What is remembered changes with the name if the
factory has a hash. -/
inductive Does (r : Registry) : Call → Registry → Prop where
  | refused (factory : Option Factory) (name : Option String) (e : Failure)
      (h : (register factory name).on r = (.error e, r)) : Does r (.register factory name) r
  | remembers (f : Factory) (k : Factory.Key) (name : Option String) (hkey : f.key? = some k)
      (h : Binds r f (nameToBind f name)) :
      Does r (.register (some f) name) (r.remembering (nameToBind f name) f k)
  | binds (f : Factory) (name : Option String) (hkey : f.key? = none)
      (h : Binds r f (nameToBind f name)) :
      Does r (.register (some f) name) (r.bind (nameToBind f name) f)
  | forgets (n : String) (f : Factory) (k : Factory.Key) (hkey : f.key? = some k)
      (h : r.get? n = some f) : Does r (.unregister n) ⟨r.factories.erase n, r.lastNames.erase k⟩
  | frees (n : String) (f : Factory) (hkey : f.key? = none) (h : r.get? n = some f) :
      Does r (.unregister n) (r.free n)
  | passes (n : String) (h : r.get? n = none) : Does r (.unregister n) r

theorem unregister_on_of_get? {r : Registry} {n : String} {f : Factory} (h : r.get? n = some f) :
    (unregister n).on r = (Act.tryChange fun r => r.forget f).on (r.free n) := by
  have hbound : r.factories.get? n = some f := h
  rw [unregister, Act.on_read_bind, hbound]
  exact Act.on_bind_ok (Act.on_change ..)

theorem unregister_on_of_free {r : Registry} {n : String} (h : r.get? n = none) :
    (unregister n).on r = (.ok (), r) := by
  have hfree : r.factories.get? n = none := h
  rw [unregister, Act.on_read_bind, hfree]
  rfl

theorem does_unregister (r : Registry) (n : String) : Does r (.unregister n) ((unregister n).on r).2 := by
  cases h : r.get? n with
  | none =>
    rw [unregister_on_of_free h]
    exact .passes n h
  | some f =>
    rw [unregister_on_of_get? h, Act.on_tryChange, forget]
    cases hkey : f.key? with
    | some k => exact .forgets n f k hkey h
    | none =>
      dsimp only
      split
      · next hchanged =>
        split at hchanged
        · cases hchanged
          exact .frees n f hkey h
        · cases hchanged
      · exact .frees n f hkey h

theorem does_next (c : Call) (r : Registry) : Does r c (c.next r) := by
  cases c with
  | unregister n => exact does_unregister r n
  | register factory name =>
    rw [next_register]
    have hregisters := registers_on r factory name
    generalize hon : (register factory name).on r = result at hregisters ⊢
    obtain ⟨outcome, r'⟩ := result
    cases hregisters with
    | @refused e hkind h => exact .refused factory name e hon
    | remembered hfactory hkey h =>
      cases hfactory
      exact .remembers _ _ name hkey h
    | stuck hfactory hkey h =>
      cases hfactory
      exact .binds _ name hkey h

/-! ### What calls keep -/

theorem Stripped.next {r : Registry} (h : r.Stripped) (c : Call) : (c.next r).Stripped := by
  obtain hdoes := does_next c r
  generalize c.next r = r' at hdoes
  cases hdoes with
  | refused => exact h
  | passes => exact h
  | remembers f k name hkey hbinds => exact h.bind hbinds.solid f
  | binds f name hkey hbinds => exact h.bind hbinds.solid f
  | forgets n f k => exact h.free n
  | frees n f => exact h.free n

/-- A bound name is freed by a call for this very name only. -/
theorem get?_next {r : Registry} {n : String} {f : Factory} (h : r.get? n = some f) {c : Call}
    (hc : c ≠ .unregister n) : (c.next r).get? n = some f := by
  have hbind : ∀ m g, Binds r g m → (r.bind m g).get? n = some f := by
    intro m g hbinds
    rw [get?_bind]
    split
    · next hm => rw [hbinds.free f (hm ▸ h)]
    · exact h
  have hfree : ∀ m, c = .unregister m → (r.free m).get? n = some f := by
    rintro m rfl
    rw [get?_free, if_neg fun hm => hc (congrArg Call.unregister hm), h]
  obtain hdoes := does_next c r
  generalize c.next r = r' at hdoes
  cases hdoes with
  | refused => exact h
  | passes => exact h
  | remembers g k name hkey hbinds => exact hbind _ g hbinds
  | binds g name hkey hbinds => exact hbind _ g hbinds
  | forgets m g k hkey hg => exact hfree m rfl
  | frees m g hkey hg => exact hfree m rfl

/-- What one call keeps, calls keep. -/
theorem after_of_next {P : Registry → Prop} (hnext : ∀ r, P r → ∀ c : Call, P (c.next r))
    {r : Registry} (h : P r) (calls : List Call) : P (after calls r) := by
  induction calls generalizing r with
  | nil => exact h
  | cons c calls ih => exact ih (hnext r h c)

theorem stripped_after (calls : List Call) : (after calls empty).Stripped :=
  after_of_next (fun _ h c => h.next c) stripped_empty calls

theorem get?_after {r : Registry} {n : String} {f : Factory} (h : r.get? n = some f)
    {calls : List Call} (hcalls : .unregister n ∉ calls) : (after calls r).get? n = some f := by
  induction calls generalizing r with
  | nil => exact h
  | cons c calls ih =>
    rw [List.mem_cons, not_or] at hcalls
    exact ih (get?_next h (Ne.symm hcalls.1)) hcalls.2

/-! ### Which name is remembered -/

/-- The call registers a factory that is remembered by the key, or frees a name of one. -/
def Call.Touches (c : Call) (r : Registry) (k : Factory.Key) : Prop :=
  match c with
  | .register factory name => ∃ f n r', factory = some f ∧ f.key? = some k ∧
      (Registry.register factory name).on r = (.ok n, r')
  | .unregister n => ∃ f, r.get? n = some f ∧ f.key? = some k

/-- None of the calls touches a factory that is remembered by the key. -/
def Spares (k : Factory.Key) : List Call → Registry → Prop
  | [], _ => True
  | c :: calls, r => ¬ c.Touches r k ∧ Spares k calls (c.next r)

/-- **The last of the calls that touched a factory equal to this one registered it**, under this name. -/
def RegisteredLast (f : Factory) (n : String) (calls : List Call) : Prop :=
  ∃ before name later r k, calls = before ++ .register (some f) name :: later ∧
    (register (some f) name).on (after before empty) = (.ok n, r) ∧ f.key? = some k ∧ Spares k later r

/-- A factory with this key was registered last. -/
def LastRegistered (k : Factory.Key) (n : String) (calls : List Call) : Prop :=
  ∃ f, f.key? = some k ∧ RegisteredLast f n calls

theorem spares_append {k : Factory.Key} {calls calls' : List Call} {r : Registry} :
    Spares k (calls ++ calls') r ↔ Spares k calls r ∧ Spares k calls' (after calls r) := by
  induction calls generalizing r with
  | nil => simp [Spares, after]
  | cons c calls ih => simp only [List.cons_append, Spares, ih, and_assoc, after, List.foldl_cons]

theorem lastNames_remembering (r : Registry) (n : String) (f : Factory) (k k' : Factory.Key) :
    (r.remembering n f k).lastNames.get? k' = if k = k' then some n else r.lastNames.get? k' :=
  Table.get?_insert r.lastNames k k' n

theorem lastNames_next {c : Call} {r : Registry} {k : Factory.Key} (h : ¬ c.Touches r k) :
    (c.next r).lastNames.get? k = r.lastNames.get? k := by
  obtain hdoes := does_next c r
  generalize c.next r = r' at hdoes
  cases hdoes with
  | refused => rfl
  | passes => rfl
  | binds => rfl
  | frees => rfl
  | remembers f k' name hkey hbinds =>
    have hk : k' ≠ k := by
      rintro rfl
      exact h ⟨f, _, _, rfl, hkey, register_on_of_key hkey hbinds⟩
    rw [lastNames_remembering, if_neg hk]
  | forgets n f k' hkey hf =>
    have hk : k' ≠ k := by
      rintro rfl
      exact h ⟨f, hf, hkey⟩
    exact (Table.get?_erase r.lastNames k' k).trans (if_neg hk)

theorem lastNames_after {k : Factory.Key} {calls : List Call} {r : Registry} (h : Spares k calls r) :
    (after calls r).lastNames.get? k = r.lastNames.get? k := by
  induction calls generalizing r with
  | nil => rfl
  | cons c calls ih => exact (ih h.2).trans (lastNames_next h.1)

/-- A call that touches a factory gives it its name if it registers it, and else it has none left. -/
theorem exists_register_of_touches {c : Call} {r : Registry} {k : Factory.Key} {n : String}
    (h : c.Touches r k) (hn : (c.next r).lastNames.get? k = some n) :
    ∃ f name, c = .register (some f) name ∧ f.key? = some k ∧
      (register (some f) name).on r = (.ok n, c.next r) := by
  obtain hdoes := does_next c r
  generalize c.next r = r' at hdoes hn
  cases hdoes with
  | refused factory name e he =>
    obtain ⟨f, m, r', -, -, hok⟩ := h
    cases he.symm.trans hok
  | passes m hm =>
    obtain ⟨f, hf, -⟩ := h
    cases hm.symm.trans hf
  | binds f name hkey =>
    obtain ⟨g, m, r', ⟨⟩, hg, -⟩ := h
    cases hkey.symm.trans hg
  | frees m f hkey hf =>
    obtain ⟨g, hg, hgk⟩ := h
    obtain rfl : f = g := Option.some.inj (hf.symm.trans hg)
    cases hkey.symm.trans hgk
  | remembers f k' name hkey hbinds =>
    obtain ⟨g, m, r', ⟨⟩, hg, -⟩ := h
    obtain rfl : k' = k := Option.some.inj (hkey.symm.trans hg)
    rw [lastNames_remembering, if_pos rfl] at hn
    obtain rfl := Option.some.inj hn
    exact ⟨f, name, rfl, hkey, register_on_of_key hkey hbinds⟩
  | forgets m f k' hkey hf =>
    obtain ⟨g, hg, hgk⟩ := h
    obtain rfl : f = g := Option.some.inj (hf.symm.trans hg)
    obtain rfl : k' = k := Option.some.inj (hkey.symm.trans hgk)
    have hforgotten : (r.lastNames.erase k').get? k' = some n := hn
    rw [Table.get?_erase, if_pos rfl] at hforgotten
    cases hforgotten

theorem after_of_register {before later : List Call} {factory : Option Factory}
    {name : Option String} {result : Except Failure String} {r r' : Registry}
    (h : (register factory name).on (after before r) = (result, r')) :
    after (before ++ .register factory name :: later) r = after later r' := by
  have hnext : (Call.register factory name).next (after before r) = r' := by
    rw [next_register, h]
  rw [after_append, ← hnext]
  rfl

theorem lastNames_of_registeredLast {f : Factory} {k : Factory.Key} {n : String} {calls : List Call}
    (hkey : f.key? = some k) (h : RegisteredLast f n calls) :
    (after calls empty).lastNames.get? k = some n := by
  obtain ⟨before, name, later, r, k', rfl, hr, hk, hspares⟩ := h
  obtain rfl : k' = k := Option.some.inj (hk.symm.trans hkey)
  obtain ⟨g, k'', ⟨⟩, hk'', -, -, rfl⟩ := register_eq_ok_iff.mp hr
  obtain rfl : k'' = k' := Option.some.inj (hk''.symm.trans hk)
  rw [after_of_register hr, lastNames_after hspares, lastNames_remembering, if_pos rfl]

/-- **A factory is remembered under the name that the last call which touched an equal one gave it**, and
not at all if that call freed a name. -/
theorem lastName_eq_some_iff {k : Factory.Key} {n : String} {calls : List Call} :
    (after calls empty).lastNames.get? k = some n ↔ LastRegistered k n calls := by
  refine ⟨?_, fun ⟨f, hkey, hlast⟩ => lastNames_of_registeredLast hkey hlast⟩
  -- by induction on the calls from the last one on
  induction calls using List.reverseRecOn with
  | nil =>
    intro h
    cases h
  | append_singleton calls c ih =>
    intro h
    rw [after_snoc] at h
    by_cases htouch : c.Touches (after calls empty) k
    · obtain ⟨f, name, rfl, hkey, hr⟩ := exists_register_of_touches htouch h
      exact ⟨f, hkey, calls, name, [], _, k, rfl, hr, hkey, trivial⟩
    · rw [lastNames_next htouch] at h
      obtain ⟨f, hkey, before, name, later, r, k', rfl, hr, hk, hspares⟩ := ih h
      obtain rfl : k' = k := Option.some.inj (hk.symm.trans hkey)
      rw [after_of_register hr] at htouch
      exact ⟨f, hkey, before, name, later ++ [c], r, k', by simp, hr, hk,
        spares_append.mpr ⟨hspares, htouch, trivial⟩⟩

/-! ### What is handed out -/

/-- The name stays with the factory as long as no name of an equal one is freed. -/
theorem get?_after_of_spares {r : Registry} {n : String} {f : Factory} {k : Factory.Key}
    (h : r.get? n = some f) (hkey : f.key? = some k) {calls : List Call} (hspares : Spares k calls r) :
    (after calls r).get? n = some f := by
  induction calls generalizing r with
  | nil => exact h
  | cons c calls ih =>
    refine ih (get?_next h ?_) hspares.2
    rintro rfl
    exact hspares.1 ⟨f, h, hkey⟩

/-- **The factory that was registered last is bound to its name.** -/
theorem get?_of_registeredLast {f : Factory} {n : String} {calls : List Call}
    (h : RegisteredLast f n calls) : (after calls empty).get? n = some f := by
  obtain ⟨before, name, later, r, k, rfl, hr, hkey, hspares⟩ := h
  rw [after_of_register hr]
  obtain ⟨g, k', ⟨⟩, -, -, -, rfl⟩ := register_eq_ok_iff.mp hr
  have hbound : ((after before empty).remembering n f k').get? n = some f :=
    (Table.get?_insert ..).trans (if_pos rfl)
  exact get?_after_of_spares hbound hkey hspares

/-- The last name of a factory. -/
def lastName? (r : Registry) (f : Factory) : Option String :=
  f.key?.bind r.lastNames.get?

theorem exists_registeredLast {calls : List Call} {f : Factory} {n : String}
    (h : (after calls empty).lastName? f = some n) :
    ∃ g, g.key? = f.key? ∧ RegisteredLast g n calls := by
  obtain ⟨k, hkey, hn⟩ := Option.bind_eq_some_iff.mp h
  obtain ⟨g, hg, hlast⟩ := lastName_eq_some_iff.mp hn
  exact ⟨g, hg.trans hkey.symm, hlast⟩

theorem get?_of_lastNames_jobClass {calls : List Call} {c : JobClass} {n : String}
    (h : (after calls empty).lastNames.get? (.jobClass c) = some n) :
    (after calls empty).get? n = some (.jobClass c) := by
  obtain ⟨f, hkey, hlast⟩ := lastName_eq_some_iff.mp h
  rw [← Factory.key?_eq_jobClass_iff.mp hkey]
  exact get?_of_registeredLast hlast

/-- **A failed registration changes a registry** if the factory has no hash and its name was free, and else
does not. -/
theorem changed_by_failure_iff {r : Registry} {factory : Option Factory} {name : Option String}
    {e : Failure} (h : ((register factory name).on r).1 = .error e) :
    ((register factory name).on r).2 ≠ r ↔ ∃ f, factory = some f ∧ f.key? = none ∧
      Solid (nameToBind f name) ∧ r.get? (nameToBind f name) = none := by
  have hregisters := registers_on r factory name
  generalize ((register factory name).on r).1 = result at h hregisters
  generalize ((register factory name).on r).2 = r' at hregisters ⊢
  cases hregisters with
  | remembered => cases h
  | refused hkind hno =>
    refine ⟨fun hne => absurd rfl hne, ?_⟩
    rintro ⟨f, hf, -, hsolid, hfree⟩
    refine absurd ⟨hsolid, fun g hg => ?_⟩ (hno f hf)
    cases hfree.symm.trans hg
  | @stuck f hf hkey hbinds =>
    cases hf
    constructor
    · intro hne
      refine ⟨f, rfl, hkey, hbinds.solid, ?_⟩
      cases hbound : r.get? (nameToBind f name) with
      | none => rfl
      | some g =>
        obtain rfl := hbinds.free g hbound
        exact absurd (bind_of_get? hbound) hne
    · rintro ⟨_, ⟨⟩, -, -, hfree⟩ heq
      have hbound := get?_bind r (nameToBind f name) (nameToBind f name) f
      rw [heq, hfree, if_pos rfl] at hbound
      cases hbound

/-- **What a registry hands out after calls.** A factory that is remembered under a name is bound to it if it
was registered last among those that are equal, so always if it is equal to itself only. A bound name is a
proper one and is given up only when this very name is freed. A registration that fails changes nothing,
unless the factory has no hash: then the name is left bound to it. A class that is remembered under a name
is found, checked and made by it as things stand. -/
structure Faithful (calls : List Call) : Prop where
  lastName : ∀ f n, (after calls empty).lastName? f = some n →
    ((after calls empty).get? n = some f ↔ RegisteredLast f n calls)
  alone : ∀ f n, (after calls empty).lastName? f = some n → (∀ g, g.key? = f.key? → g = f) →
    (after calls empty).get? n = some f
  name : ∀ n f, (after calls empty).get? n = some f → isBlank n = false ∧ strip n = n
  stays : ∀ n f more, (after calls empty).get? n = some f → .unregister n ∉ more →
    (after (calls ++ more) empty).get? n = some f
  refused : ∀ factory name e, ((register factory name).on (after calls empty)).1 = .error e →
    (((register factory name).on (after calls empty)).2 ≠ after calls empty ↔
      ∃ f, factory = some f ∧ f.key? = none ∧ Solid (nameToBind f name) ∧
        (after calls empty).get? (nameToBind f name) = none)
  stuck : ∀ f name, f.key? = none → Binds (after calls empty) f (nameToBind f name) →
    (register (some f) name).on (after calls empty) =
      (.error f.unhashable, (after calls empty).bind (nameToBind f name) f)
  preflight : ∀ {σ : Type} (h : Host σ) (w : σ), h.registry w = after calls empty → ∀ c n,
    (after calls empty).lastName? (.jobClass c) = some n →
      ∀ lines, (h.preflight (some c)).on ⟨w, lines⟩ = (.ok n, ⟨w, lines⟩)
  create : ∀ {σ : Type} (h : Host σ) (w : σ), h.registry w = after calls empty → ∀ c n,
    (after calls empty).lastName? (.jobClass c) = some n →
      ∀ owner, (h.create n owner).on w = (h.newJob c, w)

theorem nameFor_of_lastName {r : Registry} {c : JobClass} {n : String}
    (h : r.lastNames.get? (.jobClass c) = some n) : r.nameFor c = n := by
  rw [nameFor, h]
  rfl

/-- **After any calls, of which some may have failed, a registry hands out what was registered**, but for
factories that are equal to others or have no hash. -/
theorem faithful_after_calls (calls : List Call) : Faithful calls where
  lastName f n h := by
    obtain ⟨g, -, hlast⟩ := exists_registeredLast h
    refine ⟨fun hf => ?_, get?_of_registeredLast⟩
    obtain rfl : f = g := Option.some.inj (hf.symm.trans (get?_of_registeredLast hlast))
    exact hlast
  alone f n h honly := by
    obtain ⟨g, hg, hlast⟩ := exists_registeredLast h
    rw [← honly g hg]
    exact get?_of_registeredLast hlast
  name n f h := ⟨(stripped_after calls n f h).isBlank_eq, (stripped_after calls n f h).strip_eq⟩
  stays n f more h hmore := by
    rw [after_append]
    exact get?_after h hmore
  refused factory name e h := changed_by_failure_iff h
  stuck f name hkey hbinds := register_on_of_no_key hkey hbinds
  preflight h w hw c n hn lines := by
    have hname : (h.registry w).nameFor c = n := by
      rw [hw]
      exact nameFor_of_lastName hn
    have hbound : (h.registry w).get? ((h.registry w).nameFor c) = some (.jobClass c) := by
      rw [hname, hw]
      exact get?_of_lastNames_jobClass hn
    rw [Host.preflight_of_bound (j := ⟨w, lines⟩) hbound, hname]
  create h w hw c n hn owner := by
    have hbound : (h.registry w).get? n = some (.jobClass c) := by
      rw [hw]
      exact get?_of_lastNames_jobClass hn
    exact Host.create_of_bound hbound owner

/-- A class of jobs. -/
def namedClass : JobClass := ⟨0, "jobs", "Scan"⟩

/-- An object that can be called and has no hash. -/
def unhashableJob : Factory :=
  .object 0 ⟨1, "jobs", "Configured"⟩ none namedClass

/-- **The name of a factory without a hash is left bound to it** by the call that fails. -/
theorem unhashable_stays_bound :
    ((register (some unhashableJob) (some "scan.a")).on empty).1 = .error unhashableJob.unhashable ∧
      ((register (some unhashableJob) (some "scan.a")).on empty).2.get? "scan.a" =
        some unhashableJob ∧
      ((register (some unhashableJob) (some "scan.a")).on empty).2 ≠ empty := by
  have hfails : ((register (some unhashableJob) (some "scan.a")).on empty).1 =
      .error unhashableJob.unhashable := by rfl
  have hsolid : Solid (nameToBind unhashableJob (some "scan.a")) := solid_nameToBind (by decide +kernel)
  refine ⟨hfails, by decide +kernel, ?_⟩
  exact ((faithful_after_calls []).refused _ _ _ hfails).mpr ⟨_, rfl, rfl, hsolid, rfl⟩

/-- Two objects that can be called and are equal. -/
def firstEqual : Factory := .object 0 namedClass (some 0) namedClass

def secondEqual : Factory := .object 1 namedClass (some 0) namedClass

/-- Equal factories share what is remembered, which leads to the one that was registered last. -/
example :
    let r := after [.register (some firstEqual) (some "one"),
      .register (some secondEqual) (some "two")] empty
    r.lastName? firstEqual = some "two" ∧ r.get? "two" = some secondEqual ∧
      r.get? "one" = some firstEqual := by
  decide +kernel

/-- **A class is found under the name that is told for it** if the last call which touched the class
registered it, or if it is bound to its own name, and else not, whatever other names it has. If it is
found it is fit to be submitted. -/
theorem found_iff_registered_last (calls : List Call) (c : JobClass) :
    ((after calls empty).get? ((after calls empty).nameFor c) = some (.jobClass c) ↔
      (∃ n, LastRegistered (.jobClass c) n calls) ∨
        (after calls empty).get? c.name = some (.jobClass c)) ∧
    (after calls empty).nameForFactory (.jobClass c) = (after calls empty).nameFor c ∧
    ∀ {σ : Type} (h : Host σ) (w : σ), h.registry w = after calls empty →
      (after calls empty).get? ((after calls empty).nameFor c) = some (.jobClass c) →
        ∀ lines, (h.preflight (some c)).on ⟨w, lines⟩ =
          (.ok ((after calls empty).nameFor c), ⟨w, lines⟩) := by
  refine ⟨?_, rfl, ?_⟩
  · cases hlast : (after calls empty).lastNames.get? (.jobClass c) with
    | some n =>
      have hfound : (after calls empty).get? n = some (.jobClass c) := get?_of_lastNames_jobClass hlast
      rw [nameFor_of_lastName hlast]
      exact ⟨fun _ => .inl ⟨n, lastName_eq_some_iff.mp hlast⟩, fun _ => hfound⟩
    | none =>
      -- nothing is remembered, so that the own name is told
      have hname : (after calls empty).nameFor c = c.name := by
        rw [nameFor, hlast]
        rfl
      rw [hname]
      refine ⟨.inr, fun h => h.resolve_left ?_⟩
      rintro ⟨n, hn⟩
      cases hlast.symm.trans (lastName_eq_some_iff.mpr hn)
  · intro σ h w hw hfound lines
    rw [← hw] at hfound ⊢
    exact Host.preflight_of_bound (j := ⟨w, lines⟩) hfound

/-- The class is given two names, of which the second is freed. -/
def twoNames : List Call :=
  [.register (some (.jobClass namedClass)) (some "one"),
    .register (some (.jobClass namedClass)) (some "two"), .unregister "two"]

/-- A host without modules, with the registry after these calls. -/
def namedHost : Host Library :=
  Library.host (fun _ => ⟨"", .nothing, .ok (), fun _ => pure (), fun _ _ => pure (), pure (), none⟩) 0

def namedLibrary : Library := { Library.empty with registries := [after twoNames empty] }

/-- **A class is lost with one of its names**: it keeps the other, but is looked for under its own. -/
theorem class_lost_with_one_of_its_names :
    (after twoNames empty).get? "one" = some (.jobClass namedClass) ∧
      (after twoNames empty).nameFor namedClass = "jobs.Scan" ∧
      (after twoNames empty).get? "jobs.Scan" = none ∧
      (¬ ∃ n, LastRegistered (.jobClass namedClass) n twoNames) ∧
      ((namedHost.preflight (some namedClass)).on (.start namedLibrary)).1 =
        .error (.job (.unbound (.text "jobs.Scan"))) := by
  have hname : (after twoNames empty).nameFor namedClass = "jobs.Scan" := by decide +kernel
  have hfree : (after twoNames empty).get? "jobs.Scan" = none := by decide +kernel
  refine ⟨by decide +kernel, hname, hfree, fun hlast => ?_, rfl⟩
  have hfound := (found_iff_registered_last twoNames namedClass).1.mpr (.inl hlast)
  rw [hname, hfree] at hfound
  cases hfound

end ScanJobs.Registry
