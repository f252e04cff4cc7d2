import ScanJobs.Proofs.Config.Merging
import ScanJobs.Proofs.Schema.KeyPath

/-! # What was read has a key

Whatever a key leads to below a root has a path from this root, and so a key in every view of the root
(`keys_can_be_placed`). A merge reads a key before it asks for one, so of all that can go wrong with it this
does not: no entry is misplaced (`IsMisplaced`). -/

namespace ScanJobs.Config

open Schema Text

/-- The failure is that an element has no path below the root of a view. -/
def IsMisplaced (f : Failure) : Prop :=
  ∃ element fault, f = .config (.misplaced element fault)

/-! ### Entries -/

theorem not_misplaced_of_serialize {o : OptionRef} {v : Value} {f : Failure}
    (h : serialize o v = .error f) : ¬ IsMisplaced f := by
  rintro ⟨element, fault, rfl⟩
  rcases bind_eq_error_iff.mp h with h | ⟨w, -, h⟩
  · obtain ⟨u, -, hu⟩ := mapError_eq_error_iff.mp h
    cases hu
  · obtain ⟨shapeless, -, hu⟩ := mapError_eq_error_iff.mp h
    cases shapeless <;> cases hu

theorem not_misplaced_of_subset {a : Application} {scope : Node} {names : List String} {f : Failure}
    (h : a.subset scope names = .error f) : ¬ IsMisplaced f := by
  rintro ⟨element, fault, rfl⟩
  rcases bind_eq_error_iff.mp h with h | ⟨path, -, h⟩
  · obtain ⟨u, -, hu⟩ := mapError_eq_error_iff.mp h
    cases hu
  · dsimp only at h
    split at h
    · cases h
    · cases h

/-- **The key of an entry is that of what its own key leads to**, so there is one. -/
theorem not_misplaced_of_writeFor {s : Schema} {r : Node} (hr : s.Holds r) {above : String}
    {entry : String × Value} {f : Failure} (h : writeFor ⟨r, above⟩ entry = .error f) :
    ¬ IsMisplaced f := by
  rcases bind_eq_error_iff.mp h with h | ⟨t, ht, h⟩
  · rintro ⟨element, fault, rfl⟩
    obtain ⟨u, -, hu⟩ := mapError_eq_error_iff.mp h
    cases hu
  · rw [mapError_eq_ok_iff] at ht
    cases ho : t.option? with
    | none =>
      rw [ho] at h
      rintro ⟨element, fault, rfl⟩
      cases h
    | some o =>
      rw [ho] at h
      obtain ⟨path, hpath⟩ := Node.exists_pathFrom hr.kind_eq ht
      rcases bind_eq_error_iff.mp h with h | ⟨key, -, h⟩
      · rw [(Node.option?_eq_some_iff.mp ho).1,
          View.keyFor_eq_ok_iff.mpr ⟨path, hpath, rfl⟩] at h
        cases h
      · rcases bind_eq_error_iff.mp h with h | ⟨text, -, h⟩
        · exact not_misplaced_of_serialize h
        · cases h

theorem not_misplaced_of_writesFor {s : Schema} {r : Node} (hr : s.Holds r) {above : String}
    {a : Application} {f : Failure} (h : writesFor ⟨r, above⟩ a = .error f) : ¬ IsMisplaced f := by
  rcases bind_eq_error_iff.mp h with h | ⟨entries, -, h⟩
  · exact not_misplaced_of_subset h
  · obtain ⟨entry, -, he⟩ := exists_of_mapM_error h
    exact not_misplaced_of_writeFor hr he

/-! ### Merges -/

/-- Nothing but a blank key is wrong with what is to be written. -/
theorem not_misplaced_of_writeAll {es : List (String × String)} {c : Flat} {g : Given Flat}
    {f : Failure} (h : (writeAll es).on (.this c) = (.error f, g)) : ¬ IsMisplaced f := by
  induction es generalizing c with
  | nil => cases h
  | cons e es ih =>
    cases hblank : isBlank e.1 with
    | false => exact ih ((Act.on_bind_ok (write_on hblank e.2 c)).symm.trans h)
    | true =>
      have hfirst : (write e.1 e.2).on (.this c) =
          (.error (.config .improperFlatKey), .this c) := by
        have hset : c.set e.1 e.2 = .error (.config .improperFlatKey) := if_pos hblank
        rw [write, Act.on_tryChange]
        simp [hset, bind, Except.bind]
      cases (Act.on_bind_error hfirst).symm.trans h
      rintro ⟨element, fault, hf⟩
      cases hf

theorem not_misplaced_of_create {r : Node} {above : String} {f : Failure}
    (h : View.create r above = .error f) : ¬ IsMisplaced f := by
  rintro ⟨element, fault, rfl⟩
  have hprefix := map_eq_error_iff.mp h
  unfold View.properPrefix at hprefix
  split at hprefix
  · cases hprefix
  · cases hprefix

/-- **A merge makes a view, gathers what is to be written, and writes it** with the name of the root in
front. -/
theorem merge_on_given (a : Application) (r : Node) (keys : Keys) (c : Flat) :
    (merge (.this a) (.this r) keys).on (.this c) =
      (Act.ofExcept (View.create r keys.above) >>= fun w =>
        Act.ofExcept (writesFor w a) >>= fun writes =>
          writeAll ((keys.root, r.name) :: writes) >>= fun _ => pure (some w)).on (.this c) := by
  have hwrite : ∀ (writes : List (String × String)) (w : View),
      (writeAll ((keys.root, r.name) :: writes) >>= fun _ => pure (some w)) =
        write keys.root r.name >>= fun _ => writeAll writes >>= fun _ => pure (some w) :=
    fun writes w => bind_assoc ..
  simp only [hwrite]
  rfl

/-- **No merge fails for an entry that is misplaced.** -/
theorem not_misplaced_of_merge {s : Schema} {r : Node} (hr : s.Holds r) {app : Option Application}
    {keys : Keys} {c : Option Flat} {g : Given Flat} {f : Failure}
    (h : (merge (.ofOption app) (.this r) keys).on (.ofOption c) = (.error f, g)) :
    ¬ IsMisplaced f := by
  cases app with
  | none =>
    cases h
    rintro ⟨element, fault, hf⟩
    cases hf
  | some a =>
    cases c with
    | none =>
      cases h
      rintro ⟨element, fault, hf⟩
      cases hf
    | some c =>
      rcases Act.on_bind_cases ((merge_on_given a r keys c).symm.trans h) with
        ⟨f', hcreate, hf⟩ | ⟨w, g₁, hcreate, h⟩
      · cases hf
        exact not_misplaced_of_create (congrArg Prod.fst hcreate)
      obtain ⟨hview, rfl⟩ := Prod.mk.inj hcreate
      obtain ⟨above, -, rfl⟩ := map_eq_ok_iff.mp hview
      rcases Act.on_bind_cases h with ⟨f', hgather, hf⟩ | ⟨writes, g₂, hgather, h⟩
      · cases hf
        exact not_misplaced_of_writesFor hr (congrArg Prod.fst hgather)
      obtain ⟨-, rfl⟩ := Prod.mk.inj hgather
      rcases Act.on_bind_cases h with ⟨f', hall, hf⟩ | ⟨u, g₃, -, hend⟩
      · cases hf
        exact not_misplaced_of_writeAll hall
      · cases hend

/-- **Whatever can be read can be placed.** What a key leads to below a root has a path from this root,
which has the components of the key in some order, and so a key in every view of the root; and no merge of
a configuration with this root fails for want of one. -/
theorem keys_can_be_placed {s : Schema} {r : Node} (hr : s.Holds r) :
    (∀ key t, r.parse key = .ok t → ∃ path, t.site.pathFrom r.site t.names = .ok path ∧
      (split '.' path).Perm (split '.' key) ∧
      ∀ above, View.keyFor ⟨r, above⟩ t.site t.names = .ok (above ++ "." ++ path)) ∧
    ∀ (app : Option Application) (keys : Keys) (c : Option Flat) (f : Failure) (g : Given Flat),
      (merge (.ofOption app) (.this r) keys).on (.ofOption c) = (.error f, g) → ¬ IsMisplaced f := by
  refine ⟨fun key t ht => ?_, fun app keys c f g h => not_misplaced_of_merge hr h⟩
  obtain ⟨path, hpath, hperm⟩ := Node.exists_pathFrom_perm hr.kind_eq ht
  exact ⟨path, hpath, hperm, fun above => View.keyFor_eq_ok_iff.mpr ⟨path, hpath, rfl⟩⟩

/-- The name of a lower umbrella is placed after the upper one, and a merge that fails for a key which
leads nowhere fails for nothing else. -/
theorem nested_name_placed :
    nestedSchema.Holds nestedRoot ∧
      (∃ t, nestedRoot.parse "a.u.x" = .ok t ∧ (split '.' "u.a.x").Perm (split '.' "a.u.x") ∧
        View.keyFor ⟨nestedRoot, "p"⟩ t.site t.names = .ok "p.u.a.x") ∧
      ∃ f g, (merge (.ofOption (some strayEntries)) (.this nestedRoot) Keys.standard).on
        (.ofOption (some Flat.empty)) = (.error f, g) ∧ ¬ IsMisplaced f := by
  obtain ⟨hplaced, hmerge⟩ := keys_can_be_placed nestedSchema_holds
  obtain ⟨t, ht⟩ : ∃ t, nestedRoot.parse "a.u.x" = .ok t := ⟨_, rfl⟩
  obtain ⟨path, hpath, hperm, hkey⟩ := hplaced "a.u.x" t ht
  obtain rfl : path = "u.a.x" := by
    cases ht
    exact Except.ok.inj (hpath.symm.trans rfl)
  have hkeys : Keys.ofNamespace "scanrunner" = .ok Keys.standard := by rfl
  obtain ⟨habove, hreserved⟩ := Keys.solid_of_ofNamespace hkeys
  have hroot : isBlank Keys.standard.root = false :=
    (hreserved _ (by simp [Keys.reserved])).isBlank_eq
  have hsub : strayEntries.subset nestedRoot [] = .ok [("a.x", .int 1), ("a.u.v", .int 2)] := by
    rfl
  obtain ⟨f, hf⟩ : ∃ f, writesFor ⟨nestedRoot, Keys.standard.above⟩ strayEntries = .error f :=
    (writesFor_error_iff nestedSchema_holds rfl).mpr
      ⟨_, hsub, ("a.u.v", .int 2), by simp, .stray rfl⟩
  have hrun := merge_on_this_error habove hroot hf Flat.empty
  exact ⟨nestedSchema_holds, ⟨t, ht, hperm, hkey "p"⟩, f, _, hrun,
    hmerge (some strayEntries) Keys.standard (some Flat.empty) f _ hrun⟩

end ScanJobs.Config
