import ScanJobs.Proofs.Config.Restored
import ScanJobs.Proofs.Value.Grounds

/-! # Values that are written

An option writes what it accepts, and a value that it does not accept is refused as when it is read
(`Writes.refused`). Two things may keep an accepted value from being written. A set is sorted, which it can
be exactly if there are no two items, or all are compared as the same (`Writes.sets`): members of a plain
enumeration are compared as nothing, so no two of them can be written. And no integer is written that has
too many digits (`Writes.ordered`). Options of types with no set among their values, or with sets of texts,
of numbers or of truth values, write all that they accept and that has no such integer (`Writes.types`).
Nothing of this depends on the order in which a set hands out its items. -/

namespace ScanJobs

namespace OptionType

/-- What all values of the type are compared as. -/
def ground? : OptionType → Option Value.Ground
  | .text => some .text
  | .literal _ => some .text
  | .float => some .number
  | .boolean => some .number
  | _ => none

/-- **The type sorts its values**: none of them is a set of items that are compared as different. -/
def sorts : OptionType → Bool
  | .any => false
  | .sequence shape τ => !shape.isSet || τ.ground?.isSome
  | .optional τ => sorts τ
  | .union τ₁ τ₂ => sorts τ₁ && sorts τ₂
  | _ => true

/-! ### Types that sort their values -/

theorem ground?_of_accept {τ : OptionType} {g : Value.Ground} (hτ : τ.ground? = some g) {v w : Value}
    (h : accept τ v = .ok w) : w.ground? = some g ∧ w.isRow = false := by
  unfold ground? at hτ
  split at hτ
  · cases hτ
    obtain ⟨s, rfl⟩ := exists_text_of_accept h
    exact ⟨rfl, rfl⟩
  · cases hτ
    unfold accept at h
    obtain ⟨s, -, rfl⟩ := map_eq_ok_iff.mp h
    exact ⟨rfl, rfl⟩
  · cases hτ
    unfold accept at h
    obtain ⟨x, -, rfl⟩ := map_eq_ok_iff.mp h
    exact ⟨rfl, rfl⟩
  · cases hτ
    unfold accept at h
    obtain ⟨b, -, rfl⟩ := map_eq_ok_iff.mp h
    exact ⟨rfl, rfl⟩
  · cases hτ

theorem sortable_wrap_of_ground {l : Value.Listing} {shape : Shape} {zs : List Value}
    {g : Value.Ground} (h : ∀ z ∈ zs, z.ground? = some g ∧ z.isRow = false) :
    Sortable l (shape.wrap zs) := by
  have hitems : ∀ z ∈ l.of (Value.setItems zs), z.ground? = some g ∧ z.isRow = false :=
    fun z hz => h z (Value.mem_of_mem_setItems ((l.perm _).mem_iff.mp hz))
  have hsorted : ∃ ys, Value.sorted (l.of (Value.setItems zs)) = .ok ys := by
    rw [Value.sorted_eq_ok_iff fun z hz => (hitems z hz).2]
    exact .inr ⟨g, fun z hz => (hitems z hz).1⟩
  cases shape with
  | list => exact sortable_of_ordered rfl
  | tuple => exact sortable_of_ordered rfl
  | set => exact (sortable_iff_of_unordered rfl).mpr hsorted
  | frozenset => exact (sortable_iff_of_unordered rfl).mpr hsorted

/-- **What a type that sorts its values accepts** can be sorted. -/
theorem sortable_of_sorts {l : Value.Listing} : ∀ {τ : OptionType} {v w : Value}, τ.sorts = true →
    accept τ v = .ok w → Sortable l w
  | .any, _, _, hτ, _ => by cases hτ
  | .sequence shape τ, v, w, hτ, h => by
    obtain ⟨vs, zs, -, rfl, hmem⟩ := exists_wrap_of_accept h
    rw [sorts, Bool.or_eq_true] at hτ
    rcases hτ with hshape | hground
    · cases shape with
      | list => exact sortable_of_ordered rfl
      | tuple => exact sortable_of_ordered rfl
      | set => cases hshape
      | frozenset => cases hshape
    · obtain ⟨g, hg⟩ := Option.isSome_iff_exists.mp hground
      have hitems : ∀ z ∈ zs, z.ground? = some g ∧ z.isRow = false := by
        intro z hz
        obtain ⟨y, -, hy⟩ := hmem z hz
        exact ground?_of_accept hg hy
      exact sortable_wrap_of_ground hitems
  | .optional τ, v, w, hτ, h => by
    by_cases hv : v = .none
    · subst hv
      rw [accept] at h
      cases h
      exact sortable_of_ordered rfl
    · rw [accept_optional hv] at h
      have hrest : τ.sorts = true := hτ
      exact sortable_of_sorts hrest h
  | .union τ₁ τ₂, v, w, hτ, h => by
    rw [sorts, Bool.and_eq_true] at hτ
    unfold accept at h
    split at h
    · exact sortable_of_sorts hτ.2 h
    · split at h
      · next h₁ =>
        cases h
        exact sortable_of_sorts hτ.1 h₁
      · exact sortable_of_sorts hτ.2 (mapError_eq_ok_iff.mp h)
  | .integer, v, w, _, h => by
    unfold accept at h
    rw [required_eq_ok_iff] at h
    unfold integral? at h
    split at h
    · next payload =>
      cases h
      cases payload with
      | int n => exact sortable_of_ordered rfl
      | text s => exact sortable_of_ordered rfl
    · obtain ⟨n, -, rfl⟩ := Option.map_eq_some_iff.mp h
      exact sortable_of_ordered rfl
  | .text, v, w, _, h | .float, v, w, _, h | .boolean, v, w, _, h | .member _, v, w, _, h
  | .literal _, v, w, _, h => by
    unfold accept at h
    obtain ⟨a, -, rfl⟩ := map_eq_ok_iff.mp h
    exact sortable_of_ordered rfl
  | .record τs, v, w, _, h => by
    unfold accept at h
    split at h
    · split at h
      · cases h
      · obtain ⟨xs, -, rfl⟩ := map_eq_ok_iff.mp h
        exact sortable_of_ordered rfl
    · cases h
  | .map κ τ, v, w, _, h => by
    unfold accept at h
    split at h
    · obtain ⟨es, -, rfl⟩ := map_eq_ok_iff.mp h
      exact sortable_of_ordered rfl
    · cases h

end OptionType

namespace Config

open Schema

variable {l : Value.Listing} {o : OptionRef} {v w : Value}

theorem validate_eq_error_iff {f : Failure} :
    validate o v = .error f ↔ ∃ u, o.accept v = .error u ∧ f = .config (.unfit u) := by
  unfold validate
  cases o.accept v with
  | ok w => exact ⟨nofun, fun ⟨_, h, _⟩ => by cases h⟩
  | error u =>
    constructor
    · intro h
      cases h
      exact ⟨u, rfl, rfl⟩
    · rintro ⟨_, h, rfl⟩
      cases h
      rfl

/-- What is refused is said of the option, and of the value as its type was given it. -/
theorem unfit_of_accept_error {u : Unfit} (h : o.accept v = .error u) :
    u.option = o.site ∧ u.value = o.type.unflatten v := by
  unfold OptionRef.accept acceptAt at h
  cases ha : o.type.accept (o.type.unflatten v) with
  | ok w =>
    dsimp only at h
    rw [ha] at h
    cases h
  | error n =>
    dsimp only at h
    rw [ha] at h
    cases h
    exact ⟨rfl, rfl⟩

/-- **What may go wrong when a value is written**: it is refused, or it has no flat form. -/
theorem serializeIn_eq_error_iff {f : Failure} :
    serializeIn l o v = .error f ↔ validate o v = .error f ∨
      ∃ w i, validate o v = .ok w ∧ OptionType.flattenIn l w = .error i ∧
        f = .config (.ofShapeless i) := by
  have hbind : serializeIn l o v = validate o v >>= fun w =>
      (OptionType.flattenIn l w).mapError fun i => .config (.ofShapeless i) := rfl
  rw [hbind, bind_eq_error_iff]
  refine or_congr_right (exists_congr fun w => ?_)
  rw [mapError_eq_error_iff]
  constructor
  · rintro ⟨hw, i, hi, rfl⟩
    exact ⟨i, hw, hi, rfl⟩
  · rintro ⟨i, hw, hi, rfl⟩
    exact ⟨hw, i, hi, rfl⟩

/-- An accepted value is written if it can be sorted, where it is a set, and its integers are short. -/
theorem exists_serializeIn_iff (hv : validate o v = .ok w) :
    (∃ s, serializeIn l o v = .ok s) ↔ OptionType.Sortable l w ∧ w.HasShortParts := by
  rw [← OptionType.exists_flattenIn_iff]
  simp only [serializeIn_eq_ok_iff, hv, Except.ok.injEq, exists_eq_left']

/-- **Which values an option writes**, of those that it accepts, and what it says of the others. -/
structure Writes (l : Value.Listing) (o : OptionRef) (v : Value) : Prop where
  /-- A value that is not accepted is not written, with the same failure. -/
  refused : ∀ {f : Failure}, validate o v = .error f → serializeIn l o v = .error f
  /-- It does not parse, and the option is named. -/
  parse : ∀ {f : Failure}, validate o v = .error f → (o.type.unflatten v).isShowable = true →
    f.kind = .configurationParse ∧ f.configKey? = some o.site.display
  /-- If it has an integer with too many digits to be shown, that is what is said of it, and no option is
  named. -/
  unshown : ∀ {f : Failure}, validate o v = .error f → (o.type.unflatten v).isShowable = false →
    f.kind = .value ∧ f.configKey? = none ∧ f.message = ConfigFault.tooLongMessage
  /-- An accepted value that is no set is written if no integer of it is too long. -/
  ordered : ∀ {w : Value}, validate o v = .ok w → w.unordered? = none →
    ((∃ s, serializeIn l o v = .ok s) ↔ w.HasShortParts)
  /-- A set of items without rows is written if there are no two, or all are compared as the same, and no
  integer is too long. -/
  sets : ∀ {w : Value} {xs : List Value}, validate o v = .ok w → w.unordered? = some xs →
    (∀ x ∈ xs, x.isRow = false) →
    ((∃ s, serializeIn l o v = .ok s) ↔
      (xs.length ≤ 1 ∨ ∃ g, ∀ x ∈ xs, x.ground? = some g) ∧ w.HasShortParts)
  /-- Any set is written if each two of its items can be compared, and no integer is too long. -/
  comparable : ∀ {w : Value} {xs : List Value}, validate o v = .ok w → w.unordered? = some xs →
    (∀ x ∈ xs, ∀ y ∈ xs, ∃ b, Value.compare .below x y = .ok b) → w.HasShortParts →
    ∃ s, serializeIn l o v = .ok s
  /-- Of an accepted value that is not written no option is named. The set is of the wrong type, or the
  integer is a bad value. -/
  unwritten : ∀ {w : Value} {f : Failure}, validate o v = .ok w → serializeIn l o v = .error f →
    f.configKey? = none ∧ (¬ OptionType.Sortable l w ∧ f.kind = .type ∨
      ¬ w.HasShortParts ∧ f.kind = .value ∧ f.message = ConfigFault.tooLongMessage)
  /-- Options whose type sorts its values write all that they accept, unless an integer is too long. -/
  types : ∀ {w : Value}, o.type.sorts = true → validate o v = .ok w →
    ((∃ s, serializeIn l o v = .ok s) ↔ w.HasShortParts)

/-- **An option writes what it accepts**, but for sets that cannot be sorted and integers that are too
long. -/
theorem writes (l : Value.Listing) (o : OptionRef) (v : Value) : Writes l o v where
  refused hf := serializeIn_eq_error_iff.mpr (.inl hf)
  parse := by
    intro f hf hshown
    obtain ⟨u, hu, rfl⟩ := validate_eq_error_iff.mp hf
    obtain ⟨hoption, hvalue⟩ := unfit_of_accept_error hu
    rw [← hvalue] at hshown
    exact ⟨if_pos hshown, (if_pos hshown).trans (by rw [hoption])⟩
  unshown := by
    intro f hf hshown
    obtain ⟨u, hu, rfl⟩ := validate_eq_error_iff.mp hf
    rw [← (unfit_of_accept_error hu).2] at hshown
    have hno : ¬ u.value.isShowable = true := Bool.not_eq_true _ ▸ hshown
    exact ⟨if_neg hno, if_neg hno, if_neg hno⟩
  ordered hv hw := by
    rw [exists_serializeIn_iff hv]
    exact and_iff_right (OptionType.sortable_of_ordered hw)
  sets := by
    intro w xs hv hw hrows
    have hperm := l.perm xs
    have hground : ∀ g, (∀ x ∈ l.of xs, x.ground? = some g) ↔ ∀ x ∈ xs, x.ground? = some g :=
      fun g => forall_congr' fun x => by rw [hperm.mem_iff]
    rw [exists_serializeIn_iff hv, OptionType.sortable_iff_of_unordered hw,
      Value.sorted_eq_ok_iff fun x hx => hrows x (hperm.mem_iff.mp hx), hperm.length_eq]
    simp only [hground]
  comparable := by
    intro w xs hv hw hpairs hshort
    rw [exists_serializeIn_iff hv, OptionType.sortable_iff_of_unordered hw,
      Value.sorted_eq_ok_iff_checkComparable]
    have hmem : ∀ x ∈ l.of xs, x ∈ xs := fun x hx => (l.perm xs).mem_iff.mp hx
    exact ⟨Value.checkComparable_of_pairwise (Value.pairwise_of_forall_mem fun x hx y hy =>
      hpairs y (hmem y hy) x (hmem x hx)), hshort⟩
  unwritten := by
    intro w f hv hf
    rcases serializeIn_eq_error_iff.mp hf with hf | ⟨w', i, hw', hi, rfl⟩
    · cases hv.symm.trans hf
    · cases hv.symm.trans hw'
      refine ⟨?_, ?_⟩
      · cases i <;> rfl
      · cases i with
        | tooLong => exact .inr ⟨(OptionType.flattenIn_eq_tooLong_iff.mp hi).2, rfl, rfl⟩
        | unsortable j =>
          refine .inl ⟨fun hsortable => ?_, rfl⟩
          by_cases hshort : w.HasShortParts
          · obtain ⟨s, hs⟩ := OptionType.exists_flattenIn_iff.mpr ⟨hsortable, hshort⟩
            cases hi.symm.trans hs
          · cases hi.symm.trans (OptionType.flattenIn_eq_tooLong_iff.mpr ⟨hsortable, hshort⟩)
  types hτ hv := by
    rw [exists_serializeIn_iff hv]
    exact and_iff_right (OptionType.sortable_of_sorts hτ (validate_eq_ok_iff_accept.mp hv))

theorem setItems_pair {a b : Value} (hb : b.isLeaf = true) (h : Value.sameLeaf b a = false) :
    (Value.setItems [a, b]).Perm [a, b] := by
  have hdistinct : Value.distinct [a, b] = [a, b] :=
    Value.distinct_eq_self (List.pairwise_pair.mpr ((Value.same_leaf hb a).trans h))
  have hperm := Value.setItems_perm [a, b]
  rwa [hdistinct] at hperm

theorem rowless_setItems {xs : List Value} (h : ∀ x ∈ xs, x.isRow = false) :
    ∀ x ∈ Value.setItems xs, x.isRow = false :=
  fun x hx => h x (Value.mem_of_mem_setItems hx)

/-- Two members of a plain enumeration are accepted as a set and not written, though one is. A number is
not written beside the text that a member stands for. -/
theorem members_not_written :
    (∃ w, validate (optionOf (.sequence .set (.member Script.colors))) (.text "red,green") = .ok w ∧
      ¬ ∃ s, serialize (optionOf (.sequence .set (.member Script.colors))) (.text "red,green") = .ok s) ∧
    (∃ s, serialize (optionOf (.sequence .set (.member Script.colors))) (.text "red") = .ok s) ∧
    ∃ w, validate (optionOf (.sequence .set .integer))
        (.list [.int 1, .member (Script.colors.member ("RED", .text "red"))]) = .ok w ∧
      ¬ ∃ s, serialize (optionOf (.sequence .set .integer))
        (.list [.int 1, .member (Script.colors.member ("RED", .text "red"))]) = .ok s := by
  have htwo : validate (optionOf (.sequence .set (.member Script.colors))) (.text "red,green") =
      .ok (.set (Value.setItems [.member (Script.colors.member ("RED", .text "red")),
        .member (Script.colors.member ("GREEN", .text "green"))])) := rfl
  have hone : validate (optionOf (.sequence .set (.member Script.colors))) (.text "red") =
      .ok (.set (Value.setItems [.member (Script.colors.member ("RED", .text "red"))])) := rfl
  have hmixed : validate (optionOf (.sequence .set .integer))
      (.list [.int 1, .member (Script.colors.member ("RED", .text "red"))]) =
      .ok (.set (Value.setItems [.int 1, .text "red"])) := rfl
  have hcolors := setItems_pair (a := .member (Script.colors.member ("RED", .text "red")))
    (b := .member (Script.colors.member ("GREEN", .text "green"))) rfl rfl
  have hnumberText := setItems_pair (a := .int 1) (b := .text "red") rfl rfl
  refine ⟨⟨_, htwo, fun hwritten => ?_⟩, ?_, _, hmixed, fun hwritten => ?_⟩
  · have hsorted := ((writes .textsFirst _ _).sets htwo rfl
      (rowless_setItems (by simp [Value.isRow]))).mp hwritten
    rw [hcolors.length_eq] at hsorted
    rcases hsorted.1 with hlength | ⟨g, hg⟩
    · exact absurd hlength (by decide)
    · cases hg _ (hcolors.mem_iff.mpr (List.mem_cons_self ..))
  · refine ((writes .textsFirst _ _).sets hone rfl (rowless_setItems (by simp [Value.isRow]))).mpr
      ⟨.inl (Value.setItems_perm _).length_eq.le, ?_⟩
    refine (OptionType.hasShortParts_iff_items rfl).mpr fun x hx => ?_
    obtain rfl := List.mem_singleton.mp (Value.mem_of_mem_setItems hx)
    rfl
  · have hsorted := ((writes .textsFirst _ _).sets hmixed rfl
      (rowless_setItems (by simp [Value.isRow]))).mp hwritten
    rw [hnumberText.length_eq] at hsorted
    rcases hsorted.1 with hlength | ⟨g, hg⟩
    · exact absurd hlength (by decide)
    · have hnumber : some Value.Ground.number = some g := hg (.int 1) (hnumberText.mem_iff.mpr (by simp))
      have htext : some Value.Ground.text = some g := hg (.text "red") (hnumberText.mem_iff.mpr (by simp))
      cases hnumber.trans htext.symm

end Config

end ScanJobs
