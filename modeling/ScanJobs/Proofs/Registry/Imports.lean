import ScanJobs.Proofs.Registry.Bound

/-! # What is imported for a name

A host that is watched writes down which modules it is asked to import, and does the same otherwise. What
a host imports when it looks up a name is told by `Resolves`: nothing if the name is bound; else the module
that is known to own the job, or one after the other the modules that the name starts with, the innermost
first (`Owners`), as long as each of them is not there (`Searches`). What is returned is bound to the name,
and if nothing is, the failure says of which name (`resolve_imports_as_needed`). -/

namespace ScanJobs

open Text

/-! ### Modules and the packages that they lie in -/

/-- **The first is the second, or a package that it lies in**: its components are the first ones of the
other. -/
def Encloses (m n : String) : Prop :=
  split '.' m <+: split '.' n

theorem split_append (m n : String) : split '.' (m ++ "." ++ n) = split '.' m ++ split '.' n := by
  have hlist : (m ++ "." ++ n).toList = m.toList ++ '.' :: n.toList := by
    simp [String.toList_append]
  rw [split, hlist, splitList_append, List.map_append]
  rfl

/-- A package is what a name starts with before a dot. -/
theorem encloses_iff {m n : String} : Encloses m n ↔ n = m ∨ startsWith (m ++ ".") n = true := by
  rw [startsWith_iff]
  constructor
  · rintro ⟨rest, hrest⟩
    have hn : n = join '.' (split '.' m ++ rest) := by rw [hrest, join_split]
    cases rest with
    | nil =>
      rw [List.append_nil, join_split] at hn
      exact .inl hn
    | cons p ps =>
      rw [join_append (split_ne_nil m) (List.cons_ne_nil p ps), join_split] at hn
      exact .inr ⟨_, hn⟩
  · rintro (rfl | ⟨rest, rfl⟩)
    · exact List.prefix_rfl
    · exact ⟨split '.' rest, (split_append m rest).symm⟩

/-- **The modules that a name starts with**: each of them is a package of all before it. -/
structure Owners (name : String) (ms : List String) : Prop where
  mem_iff : ∀ m, m ∈ ms ↔ m ≠ name ∧ Encloses m name
  innermostFirst : ms.Pairwise fun m m' => m' ≠ m ∧ Encloses m' m

namespace Host

variable {σ : Type} {h : Host σ}

theorem split_join_take {name : String} {n : Nat} (hn : n ≠ 0) :
    split '.' (join '.' ((split '.' name).take n)) = (split '.' name).take n := by
  refine split_join ?_ fun p hp => not_mem_of_mem_split (List.mem_of_mem_take hp)
  rw [ne_eq, List.take_eq_nil_iff, not_or]
  exact ⟨hn, split_ne_nil name⟩

/-- The fewer components are taken of a name, the further out lies the package. -/
theorem encloses_join_take {name : String} {k n : Nat} (hk : k ≠ 0) (hkn : k < n)
    (hn : n ≤ (split '.' name).length) :
    join '.' ((split '.' name).take k) ≠ join '.' ((split '.' name).take n) ∧
      Encloses (join '.' ((split '.' name).take k)) (join '.' ((split '.' name).take n)) := by
  have hn0 : n ≠ 0 := by omega
  constructor
  · intro heq
    have hlength := congrArg (fun s => (split '.' s).length) heq
    simp only [split_join_take hk, split_join_take hn0, List.length_take] at hlength
    omega
  · rw [Encloses, split_join_take hk, split_join_take hn0]
    exact List.take_prefix_take_left (Nat.le_of_lt hkn)

theorem mem_counts_iff {k n : Nat} : n ∈ ((List.range k).drop 1).reverse ↔ n ≠ 0 ∧ n < k := by
  rw [List.mem_reverse]
  cases k with
  | zero => simp
  | succ k =>
    rw [List.range_succ_eq_map, List.drop_succ_cons, List.drop_zero, List.mem_map]
    constructor
    · rintro ⟨n', hn', rfl⟩
      have hlt := List.mem_range.mp hn'
      exact ⟨by omega, by omega⟩
    · rintro ⟨h0, hlt⟩
      exact ⟨n - 1, List.mem_range.mpr (by omega), by omega⟩

theorem owners_ownersOf (name : String) : Owners name (ownersOf name) where
  mem_iff m := by
    have hall : join '.' ((split '.' name).take (split '.' name).length) = name := by
      rw [List.take_length, join_split]
    unfold ownersOf
    simp only [List.mem_map, mem_counts_iff]
    constructor
    · rintro ⟨n, ⟨h0, hlt⟩, rfl⟩
      have houter := encloses_join_take h0 hlt (Nat.le_refl _)
      rwa [hall] at houter
    · rintro ⟨hne, henc⟩
      refine ⟨(split '.' m).length, ⟨by simp [split_ne_nil], ?_⟩, ?_⟩
      · refine Nat.lt_of_le_of_ne henc.length_le fun hlength => hne ?_
        have hsame : join '.' (split '.' m) = join '.' (split '.' name) := by
          rw [henc.eq_of_length hlength]
        rwa [join_split, join_split] at hsame
      · rw [← List.prefix_iff_eq_take.mp henc, join_split]
  innermostFirst := by
    unfold ownersOf
    rw [List.pairwise_map, List.pairwise_reverse]
    have hsorted : ((List.range (split '.' name).length).drop 1).Pairwise (· < ·) :=
      List.pairwise_lt_range.drop
    refine hsorted.imp_of_mem fun {k n} hk hn hkn => ?_
    rw [← List.mem_reverse, mem_counts_iff] at hk hn
    exact encloses_join_take hk.1 hkn (Nat.le_of_lt hn.2)

example : ownersOf "jobs.text.Count" = ["jobs.text", "jobs"] := by decide

/-! ### What a failed import says -/

/-- **The failure says that the module is not there**: what is missing is the module, a package that it
lies in, or is not told. -/
def Lacks (m : String) (f : Failure) : Prop :=
  f.kind = .missingModule ∧
    (f.missingModule.truth = false ∨ ∃ n, f.missingModule.text? = some n ∧ Encloses n m)

/-- The failure tells what is missing by something that is no name. -/
def Misnamed (f : Failure) : Prop :=
  f.kind = .missingModule ∧ f.missingModule.truth = true ∧ f.missingModule.text? = none

/-- A failure that is not of a missing module says nothing of the sort, whatever it tells beside. -/
theorem isAbsence_of_kind {m : String} {f : Failure} (hf : f.kind ≠ .missingModule) :
    isAbsence m f = .ok false := by
  unfold isAbsence
  split
  · next hk _ => exact absurd hk hf
  · next hk _ _ => exact absurd hk hf
  · next hk _ _ => exact absurd hk hf
  · rfl

/-- What is made of a failed import. -/
inductive Judged (m : String) (f : Failure) : Except Failure Bool → Prop where
  | absent (hf : Lacks m f) : Judged m f (.ok true)
  | broken (hf : ¬ Lacks m f) (hn : ¬ Misnamed f) : Judged m f (.ok false)
  | misnamed (hn : Misnamed f) :
      Judged m f (.error (.shape (.notJoinable f.missingModule.typeName)))

theorem judged_isAbsence (m : String) (f : Failure) : Judged m f (isAbsence m f) := by
  by_cases hk : f.kind = .missingModule
  · unfold isAbsence
    rw [hk]
    cases ht : f.missingModule.truth with
    | false => exact .absent ⟨hk, .inl ht⟩
    | true =>
      have htold : ¬ f.missingModule.truth = false := by simp [ht]
      cases hn : f.missingModule.text? with
      | none => exact .misnamed ⟨hk, ht, hn⟩
      | some n =>
        have hnamed : ¬ Misnamed f := fun h => nomatch hn.symm.trans h.2.2
        have henc : (m == n || startsWith (n ++ ".") m) = true ↔ Encloses n m := by
          rw [encloses_iff, Bool.or_eq_true, beq_iff_eq]
        dsimp only
        cases hb : (m == n || startsWith (n ++ ".") m) with
        | true => exact .absent ⟨hk, .inr ⟨n, hn, henc.mp hb⟩⟩
        | false =>
          refine .broken ?_ hnamed
          rintro ⟨-, hfalse | ⟨n', hn', henc'⟩⟩
          · exact htold hfalse
          · cases hn.symm.trans hn'
            rw [henc.mpr henc'] at hb
            cases hb
  · rw [isAbsence_of_kind hk]
    exact .broken (fun h => hk h.1) fun h => hk h.1

/-! ### Imports in turn -/

/-- **One module after the other is imported** until one is there: which are tried, and how it ends. A
failure that does not say that the module is not there ends it. -/
inductive Searches (h : Host σ) : List String → σ → List String → Except Failure Unit → σ → Prop where
  /-- There is no module left. -/
  | nowhere (w : σ) : Searches h [] w [] (.ok ()) w
  | imported {m : String} {ms : List String} {w w' : σ}
      (hm : (h.importModule m).on w = (.ok (), w')) : Searches h (m :: ms) w [m] (.ok ()) w'
  | skipped {m : String} {ms tried : List String} {w w₁ w' : σ} {f : Failure}
      {r : Except Failure Unit} (hm : (h.importModule m).on w = (.error f, w₁)) (hf : Lacks m f)
      (rest : Searches h ms w₁ tried r w') : Searches h (m :: ms) w (m :: tried) r w'
  | stopped {m : String} {ms : List String} {w w' : σ} {f : Failure}
      (hm : (h.importModule m).on w = (.error f, w')) (hf : ¬ Lacks m f) (hn : ¬ Misnamed f) :
      Searches h (m :: ms) w [m] (.error f) w'
  /-- What is missing cannot be told from the module. -/
  | misnamed {m : String} {ms : List String} {w w' : σ} {f : Failure}
      (hm : (h.importModule m).on w = (.error f, w')) (hn : Misnamed f) :
      Searches h (m :: ms) w [m] (.error (.shape (.notJoinable f.missingModule.typeName))) w'

/-- **What may bind a name is imported**: the module that is known to own the job, or the first that is
there of those that the name starts with. -/
inductive Imports (h : Host σ) (name : String) :
    Option String → σ → List String → Except Failure Unit → σ → Prop where
  | owner {m : String} {w w' : σ} (hne : m ≠ "") (hm : (h.importModule m).on w = (.ok (), w')) :
      Imports h name (some m) w [m] (.ok ()) w'
  | ownerMissing {m : String} {w w' : σ} {f : Failure} (hne : m ≠ "")
      (hm : (h.importModule m).on w = (.error f, w')) (hf : f.kind.isImport = true) :
      Imports h name (some m) w [m] (.error (.job (.notImported m (.text name) f.message))) w'
  | ownerBroken {m : String} {w w' : σ} {f : Failure} (hne : m ≠ "")
      (hm : (h.importModule m).on w = (.error f, w')) (hf : f.kind.isImport = false) :
      Imports h name (some m) w [m] (.error f) w'
  /-- No module is known to own the job. -/
  | owners {owner : Option String} {ms tried : List String} {w w' : σ} {r : Except Failure Unit}
      (howner : ∀ m ∈ owner, m = "") (hms : Owners name ms) (hs : Searches h ms w tried r w') :
      Imports h name owner w tried r w'

/-- **A name is looked up**: which modules are tried, and how it ends. -/
inductive Resolves (h : Host σ) (name : String) (owner : Option String) (w : σ) :
    List String → Except Failure Factory → σ → Prop where
  | bound {f : Factory} (hf : (h.registry w).get? name = some f) :
      Resolves h name owner w [] (.ok f) w
  | found {tried : List String} {f : Factory} {w' : σ} (hfree : (h.registry w).get? name = none)
      (hi : Imports h name owner w tried (.ok ()) w') (hf : (h.registry w').get? name = some f) :
      Resolves h name owner w tried (.ok f) w'
  | unbound {tried : List String} {w' : σ} (hfree : (h.registry w).get? name = none)
      (hi : Imports h name owner w tried (.ok ()) w') (hf : (h.registry w').get? name = none) :
      Resolves h name owner w tried (.error (.job (.unbound (.text name)))) w'
  | refused {tried : List String} {e : Failure} {w' : σ} (hfree : (h.registry w).get? name = none)
      (hi : Imports h name owner w tried (.error e) w') : Resolves h name owner w tried (.error e) w'

/-! ### Hosts that are watched -/

/-- **The host that writes down which modules are asked for.** -/
def watched (h : Host σ) : Host (σ × List String) where
  registry w := h.registry w.1
  importModule m := do
    Act.change fun w => (w.1, w.2 ++ [m])
    Act.zoom Prod.fst (fun s w => (s, w.2)) (h.importModule m)
  behaviour := h.behaviour

/-- The modules that are asked for when a name is looked up. -/
def importsFor (h : Host σ) (name : String) (owner : Option String) (w : σ) : List String :=
  ((h.watched.resolve name owner).on (w, [])).2.2

theorem watched_import {m : String} {w w' : σ} {r : Except Failure Unit}
    (hm : (h.importModule m).on w = (r, w')) (log : List String) :
    (h.watched.importModule m).on (w, log) = (r, w', log ++ [m]) := by
  have hboth : (h.watched.importModule m).on (w, log) =
      (((h.importModule m).on w).1, ((h.importModule m).on w).2, log ++ [m]) := rfl
  rw [hboth, hm]

theorem importFirst_ok {m : String} {w w' : σ} (hm : (h.importModule m).on w = (.ok (), w'))
    (ms : List String) : (h.importFirst (m :: ms)).on w = (.ok (), w') := by
  rw [importFirst, Act.on_attempt_bind hm]
  rfl

theorem importFirst_error {m : String} {w w' : σ} {f : Failure}
    (hm : (h.importModule m).on w = (.error f, w')) (ms : List String) :
    (h.importFirst (m :: ms)).on w =
      (Act.ofExcept (isAbsence m f) >>= fun absent =>
        if absent then h.importFirst ms else throw f).on w' := by
  rw [importFirst, Act.on_attempt_bind hm]

/-- Modules are tried in turn, and the watched host writes them down. -/
theorem exists_searches (h : Host σ) (ms : List String) (w : σ) (log : List String) :
    ∃ tried r w', (h.importFirst ms).on w = (r, w') ∧
      (h.watched.importFirst ms).on (w, log) = (r, w', log ++ tried) ∧
        Searches h ms w tried r w' := by
  induction ms generalizing w log with
  | nil => exact ⟨[], .ok (), w, rfl, by rw [List.append_nil]; rfl, .nowhere w⟩
  | cons m ms ih =>
    cases hm : (h.importModule m).on w with
    | mk result w₁ =>
      have hwatched := watched_import hm log
      cases result with
      | ok u => exact ⟨[m], .ok (), w₁, importFirst_ok hm ms, importFirst_ok hwatched ms, .imported hm⟩
      | error f =>
        rw [importFirst_error hm, importFirst_error hwatched]
        have hjudged := judged_isAbsence m f
        generalize isAbsence m f = judgement at hjudged
        cases hjudged with
        | absent hf =>
          obtain ⟨tried, r, w', hrest, hlog, hs⟩ := ih w₁ (log ++ [m])
          refine ⟨m :: tried, r, w', hrest, ?_, .skipped hm hf hs⟩
          rw [← List.append_cons] at hlog
          exact hlog
        | broken hf hn => exact ⟨[m], .error f, w₁, rfl, rfl, .stopped hm hf hn⟩
        | misnamed hn => exact ⟨[m], _, w₁, rfl, rfl, .misnamed hm hn⟩

theorem importOwner_ok {m : String} {w w' : σ} (hm : (h.importModule m).on w = (.ok (), w'))
    (name : Value) : (h.importOwner name m).on w = (.ok (), w') := by
  rw [importOwner, Act.on_attempt_bind hm]
  rfl

theorem importOwner_error {m : String} {w w' : σ} {f : Failure}
    (hm : (h.importModule m).on w = (.error f, w')) (name : Value) :
    (h.importOwner name m).on w =
      (.error (if f.kind.isImport then .job (.notImported m name f.message) else f), w') := by
  rw [importOwner, Act.on_attempt_bind hm]
  rfl

theorem importFor_of_owner {m : String} (hne : m ≠ "") (name : String) :
    h.importFor name (some m) = h.importOwner (.text name) m := by
  rw [importFor, if_neg]
  simpa using hne

theorem importFor_of_no_owner {owner : Option String} (howner : ∀ m ∈ owner, m = "") (name : String) :
    h.importFor name owner = h.importFirst (ownersOf name) := by
  cases owner with
  | none => rfl
  | some m =>
    obtain rfl := howner m rfl
    rfl

theorem exists_imports (h : Host σ) (name : String) (owner : Option String) (w : σ)
    (log : List String) :
    ∃ tried r w', (h.importFor name owner).on w = (r, w') ∧
      (h.watched.importFor name owner).on (w, log) = (r, w', log ++ tried) ∧
        Imports h name owner w tried r w' := by
  by_cases howner : ∀ m ∈ owner, m = ""
  · rw [importFor_of_no_owner howner, importFor_of_no_owner howner]
    obtain ⟨tried, r, w', hon, hlog, hs⟩ := exists_searches h (ownersOf name) w log
    exact ⟨tried, r, w', hon, hlog, .owners howner (owners_ownersOf name) hs⟩
  · obtain ⟨m, rfl, hne⟩ : ∃ m, owner = some m ∧ m ≠ "" := by simpa using howner
    rw [importFor_of_owner hne, importFor_of_owner hne]
    cases hm : (h.importModule m).on w with
    | mk result w₁ =>
      have hwatched := watched_import hm log
      cases result with
      | ok u =>
        exact ⟨[m], .ok (), w₁, importOwner_ok hm _, importOwner_ok hwatched _, .owner hne hm⟩
      | error f =>
        refine ⟨[m], _, w₁, importOwner_error hm _, importOwner_error hwatched _, ?_⟩
        cases hf : f.kind.isImport with
        | true => exact .ownerMissing hne hm hf
        | false => exact .ownerBroken hne hm hf

/-- Looking a name up is looking it up, and again after an import if it is not bound. -/
theorem resolve_of_free {name : String} {w w' : σ} {owner : Option String} {r : Except Failure Unit}
    (hfree : (h.registry w).get? name = none) (hi : (h.importFor name owner).on w = (r, w')) :
    (h.resolve name owner).on w =
      (r >>= fun _ => ((h.registry w').get? name).elim (.error (.job (.unbound (.text name)))) .ok,
        w') := by
  rw [resolve, Act.on_read_bind, hfree]
  cases r with
  | error e => exact Act.on_bind_error hi
  | ok u =>
    refine (Act.on_bind_ok hi).trans ?_
    rw [Act.on_read_bind]
    cases (h.registry w').get? name with
    | none => rfl
    | some f => rfl

theorem exists_resolves (h : Host σ) (name : String) (owner : Option String) (w : σ) :
    ∃ tried r w', (h.resolve name owner).on w = (r, w') ∧
      (h.watched.resolve name owner).on (w, []) = (r, w', tried) ∧
        Resolves h name owner w tried r w' := by
  cases hname : (h.registry w).get? name with
  | some f =>
    have hwatched : (h.watched.registry (w, [])).get? name = some f := hname
    exact ⟨[], .ok f, w, resolve_of_bound hname owner, resolve_of_bound hwatched owner, .bound hname⟩
  | none =>
    have hwatched : (h.watched.registry (w, [])).get? name = none := hname
    obtain ⟨tried, r, w', hon, hlog, hi⟩ := exists_imports h name owner w []
    rw [resolve_of_free hname hon, resolve_of_free hwatched hlog]
    refine ⟨tried, _, w', rfl, rfl, ?_⟩
    cases r with
    | error e => exact .refused hname hi
    | ok u =>
      cases hf : (h.registry w').get? name with
      | none => exact .unbound hname hi hf
      | some f => exact .found hname hi hf

/-- A failure to find the class of this name. -/
def OfName (name : String) (e : Failure) : Prop :=
  e.kind = .classResolution ∧ e.className? = some (.text name)

/-- The last of the modules that were tried failed so, or told what is missing by no name. -/
def LetThrough (h : Host σ) (tried : List String) (e : Failure) (w' : σ) : Prop :=
  ∃ before m w f, tried = before ++ [m] ∧ (h.importModule m).on w = (.error f, w') ∧
    (e = f ∨ Misnamed f)

theorem Searches.letThrough {ms tried : List String} {w w' : σ} {e : Failure}
    (hs : Searches h ms w tried (.error e) w') : LetThrough h tried e w' := by
  generalize hr : (.error e : Except Failure Unit) = r at hs
  induction hs with
  | nowhere | imported => cases hr
  | skipped hm hf _ ih =>
    obtain ⟨before, m, w, f, rfl, hlast, he⟩ := ih hr
    exact ⟨_ :: before, m, w, f, rfl, hlast, he⟩
  | stopped hm =>
    cases hr
    exact ⟨[], _, _, _, rfl, hm, .inl rfl⟩
  | misnamed hm hn => exact ⟨[], _, _, _, rfl, hm, .inr hn⟩

theorem Resolves.ofName_or_letThrough {name : String} {owner : Option String} {w w' : σ}
    {tried : List String} {e : Failure} (hr : Resolves h name owner w tried (.error e) w') :
    OfName name e ∨ LetThrough h tried e w' := by
  cases hr with
  | unbound => exact .inl ⟨rfl, rfl⟩
  | refused _ hi =>
    cases hi with
    | ownerMissing => exact .inl ⟨rfl, rfl⟩
    | ownerBroken _ hm => exact .inr ⟨[], _, _, _, rfl, hm, .inl rfl⟩
    | owners _ _ hs => exact .inr hs.letThrough

/-- **A name is looked up with as few imports as needed**, and what is returned is bound to it. The modules
that are asked for, what comes of it and what is left behind are those of `Resolves`. It fails for want of
this name, or as the last of the modules did. -/
theorem resolve_imports_as_needed (h : Host σ) (name : String) (owner : Option String) (w : σ) :
    (h.watched.resolve name owner).on (w, []) =
        (((h.resolve name owner).on w).1, ((h.resolve name owner).on w).2, h.importsFor name owner w) ∧
      Resolves h name owner w (h.importsFor name owner w) ((h.resolve name owner).on w).1
        ((h.resolve name owner).on w).2 ∧
      (∀ f, ((h.resolve name owner).on w).1 = .ok f →
        (h.registry ((h.resolve name owner).on w).2).get? name = some f) ∧
      ∀ e, ((h.resolve name owner).on w).1 = .error e →
        OfName name e ∨ LetThrough h (h.importsFor name owner w) e ((h.resolve name owner).on w).2 := by
  obtain ⟨tried, r, w', hon, hlog, hr⟩ := exists_resolves h name owner w
  have htried : h.importsFor name owner w = tried := by rw [importsFor, hlog]
  rw [htried, hon]
  refine ⟨hlog, hr, fun f hf => ?_, fun e he => ?_⟩
  · obtain rfl : r = .ok f := hf
    exact resolve_ok hon
  · obtain rfl : r = .error e := he
    exact hr.ofName_or_letThrough

end Host

end ScanJobs
