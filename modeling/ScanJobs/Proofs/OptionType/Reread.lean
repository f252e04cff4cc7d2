import ScanJobs.Config.View
import ScanJobs.Proofs.Fallible
import ScanJobs.Proofs.Value.Sets

/-! # Values read from text

What an option takes a text for, it takes as it is from then on (`validate_validate_text`): the value
is of the type already, or it is the text itself, or it is a container of such items. A configuration
rebuilt from texts may so be read like the one it was made from. -/

namespace ScanJobs.OptionType

/-! ### Acceptance of parts -/

theorem both_eq_ok_iff {α β : Type} {a : Acceptance α} {b : Acceptance β} {p : α × β} :
    both a b = .ok p ↔ a = .ok p.1 ∧ b = .ok p.2 := by
  cases a <;> cases b <;> simp [both, Prod.ext_iff]

theorem all_eq_ok_iff {α : Type} {as : List (Acceptance α)} {xs : List α} :
    all as = .ok xs ↔ as = xs.map .ok := by
  induction as generalizing xs with
  | nil =>
    rw [all]
    cases xs <;> simp
  | cons a as ih =>
    rw [all, map_eq_ok_iff]
    constructor
    · rintro ⟨p, hp, rfl⟩
      obtain ⟨ha, has⟩ := both_eq_ok_iff.mp hp
      rw [ha, ih.mp has, List.map_cons]
    · intro h
      cases xs with
      | nil => cases h
      | cons x xs =>
        rw [List.map_cons, List.cons.injEq] at h
        exact ⟨(x, xs), both_eq_ok_iff.mpr ⟨h.1, ih.mpr h.2⟩, rfl⟩

theorem required_eq_ok_iff {α : Type} {a : Option α} {x : α} :
    required a = .ok x ↔ a = some x := by
  cases a <;> simp [required, fault]

/-! ### Values of the type -/

/-- Values of a type without parts are taken as they are. -/
theorem accept_of_isExact : ∀ {τ : OptionType} {v : Value}, isExact τ v = true → accept τ v = .ok v
  | .text, v, h => by
    obtain ⟨s, rfl⟩ := isExact_iff.mp h
    rfl
  | .integer, v, h => by
    obtain ⟨n, rfl⟩ := isExact_iff.mp h
    rfl
  | .float, v, h => by
    obtain ⟨x, rfl⟩ := isExact_iff.mp h
    rfl
  | .boolean, v, h => by
    obtain ⟨b, rfl⟩ := isExact_iff.mp h
    cases b <;> rfl
  | .member e, v, h => by
    obtain ⟨m, rfl, hm⟩ := isExact_iff.mp h
    simp [accept, memberOf?, hm, required, Except.map]
  | .literal choices, v, h => by
    obtain ⟨s, hs, rfl⟩ := isExact_iff.mp h
    simp [accept, choiceOf?, Value.text?, hs, required, Except.map, Option.filter]
  | .optional τ, v, h => by
    by_cases hv : v = .none
    · subst hv
      unfold accept
      rfl
    · rw [accept_optional hv]
      exact accept_of_isExact ((isExact_iff.mp h).resolve_left hv)
  | .union τ₁ τ₂, v, h => by
    unfold accept
    cases h₁ : isExact τ₁ v with
    | true =>
      rw [accept_of_isExact h₁]
      rfl
    | false =>
      have h₂ : isExact τ₂ v = true :=
        (isExact_iff.mp h).resolve_left (by rw [h₁]; decide)
      rw [h₂]
      exact accept_of_isExact h₂
  | .any, v, h => by simp [isExact] at h
  | .sequence _ _, v, h => by simp [isExact] at h
  | .record _, v, h => by simp [isExact] at h
  | .map _ _, v, h => by simp [isExact] at h

/-- Values of a type without parts have none. -/
theorem isLeaf_of_isExact : ∀ {τ : OptionType} {v : Value}, isExact τ v = true → v.isLeaf = true
  | .text, v, h => by
    obtain ⟨s, rfl⟩ := isExact_iff.mp h
    rfl
  | .integer, v, h => by
    obtain ⟨n, rfl⟩ := isExact_iff.mp h
    rfl
  | .float, v, h => by
    obtain ⟨x, rfl⟩ := isExact_iff.mp h
    rfl
  | .boolean, v, h => by
    obtain ⟨b, rfl⟩ := isExact_iff.mp h
    rfl
  | .member e, v, h => by
    obtain ⟨m, rfl, -⟩ := isExact_iff.mp h
    rfl
  | .literal choices, v, h => by
    obtain ⟨s, -, rfl⟩ := isExact_iff.mp h
    rfl
  | .optional τ, v, h => by
    rcases isExact_iff.mp h with rfl | h
    · rfl
    · exact isLeaf_of_isExact h
  | .union τ₁ τ₂, v, h => by
    rcases isExact_iff.mp h with h | h
    · exact isLeaf_of_isExact h
    · exact isLeaf_of_isExact h
  | .any, v, h => by simp [isExact] at h
  | .sequence _ _, v, h => by simp [isExact] at h
  | .record _, v, h => by simp [isExact] at h
  | .map _ _, v, h => by simp [isExact] at h

/-! ### Texts -/

/-- **A text stands for a value of the type, or for itself.** -/
theorem isExact_or_eq_of_accept_text : ∀ {τ : OptionType} {s : String} {v : Value},
    accept τ (.text s) = .ok v → isExact τ v = true ∨ v = .text s
  | .any, s, v, h => by
    unfold accept at h
    cases h
    exact .inr rfl
  | .text, s, v, h => by
    unfold accept at h
    obtain ⟨t, -, rfl⟩ := map_eq_ok_iff.mp h
    exact .inl rfl
  | .integer, s, v, h => by
    unfold accept at h
    rw [required_eq_ok_iff] at h
    obtain ⟨n, -, rfl⟩ := Option.map_eq_some_iff.mp h
    exact .inl rfl
  | .float, s, v, h => by
    unfold accept at h
    obtain ⟨x, -, rfl⟩ := map_eq_ok_iff.mp h
    exact .inl rfl
  | .boolean, s, v, h => by
    unfold accept at h
    obtain ⟨b, -, rfl⟩ := map_eq_ok_iff.mp h
    exact .inl rfl
  | .member e, s, v, h => by
    unfold accept at h
    obtain ⟨m, hm, rfl⟩ := map_eq_ok_iff.mp h
    rw [required_eq_ok_iff] at hm
    obtain ⟨p, -, hp⟩ := Option.bind_eq_some_iff.mp hm
    obtain ⟨entry, -, rfl⟩ := Option.map_eq_some_iff.mp hp
    exact .inl (by simp [isExact, Enumeration.member])
  | .literal choices, s, v, h => by
    unfold accept at h
    obtain ⟨t, ht, rfl⟩ := map_eq_ok_iff.mp h
    rw [required_eq_ok_iff] at ht
    obtain ⟨-, hmem⟩ := Option.filter_eq_some_iff.mp ht
    exact .inl (by simpa [isExact] using hmem)
  | .optional τ, s, v, h => by
    rw [accept_optional (by simp)] at h
    exact (isExact_or_eq_of_accept_text h).imp_left fun h => isExact_iff.mpr (.inr h)
  | .union τ₁ τ₂, s, v, h => by
    unfold accept at h
    split at h
    · exact (isExact_or_eq_of_accept_text h).imp_left fun h => isExact_iff.mpr (.inr h)
    · split at h
      · next h₁ =>
        cases h
        exact (isExact_or_eq_of_accept_text h₁).imp_left fun h => isExact_iff.mpr (.inl h)
      · have h₂ := mapError_eq_ok_iff.mp h
        exact (isExact_or_eq_of_accept_text h₂).imp_left fun h => isExact_iff.mpr (.inr h)
  | .sequence _ _, s, v, h => by
    unfold accept at h
    cases h
  | .record _, s, v, h => by
    unfold accept at h
    cases h
  | .map _ _, s, v, h => by
    unfold accept at h
    cases h

theorem accept_accept_text {τ : OptionType} {s : String} {v : Value}
    (h : accept τ (.text s) = .ok v) : accept τ v = .ok v := by
  rcases isExact_or_eq_of_accept_text h with he | rfl
  · exact accept_of_isExact he
  · exact h

theorem isLeaf_of_accept_text {τ : OptionType} {s : String} {v : Value}
    (h : accept τ (.text s) = .ok v) : v.isLeaf = true := by
  rcases isExact_or_eq_of_accept_text h with he | rfl
  · exact isLeaf_of_isExact he
  · rfl

/-! ### Sequences of texts -/

/-- The item is taken as it is. -/
structure Settled (shape : Shape) (τ : OptionType) (v : Value) : Prop where
  accept_eq : (accept τ v >>= itemFor shape) = .ok v
  isLeaf_eq : v.isLeaf = true

theorem itemFor_eq_ok_iff {shape : Shape} {v w : Value} :
    itemFor shape v = .ok w ↔ (shape.isSet && !v.isHashable) = false ∧ w = v := by
  unfold itemFor
  split
  · next h => simp [fault, h]
  · next h =>
    rw [Bool.not_eq_true] at h
    simp [h, eq_comm]

theorem settled_of_text {shape : Shape} {τ : OptionType} {s : String} {v : Value}
    (h : (accept τ (.text s) >>= itemFor shape) = .ok v) : Settled shape τ v := by
  obtain ⟨w, hw, hi⟩ := bind_eq_ok_iff.mp h
  obtain ⟨hshape, rfl⟩ := itemFor_eq_ok_iff.mp hi
  refine ⟨?_, isLeaf_of_accept_text hw⟩
  rw [accept_accept_text hw]
  exact hi

theorem accept_sequence_eq_ok_iff {shape : Shape} {τ : OptionType} {v w : Value}
    {xs : List Value} (h : v.items? = some xs) :
    accept (.sequence shape τ) v = .ok w ↔
      ∃ ys, xs.map (fun x => accept τ x >>= itemFor shape) = ys.map .ok ∧ shape.wrap ys = w := by
  rw [accept, h]
  simp only [map_eq_ok_iff, all_eq_ok_iff]

/-- A container of leaves holds them, or it is a set, which is made up of its items. -/
theorem wrap_items {xs : List Value} (h : ∀ x ∈ xs, x.isLeaf = true) (shape : Shape) :
    ∃ ys, (shape.wrap xs).items? = some ys ∧ (∀ y ∈ ys, y ∈ xs) ∧
      shape.wrap ys = shape.wrap xs ∧ (shape.wrap xs).text? = none := by
  cases shape with
  | list => exact ⟨xs, rfl, fun _ hy => hy, rfl, rfl⟩
  | tuple => exact ⟨xs, rfl, fun _ hy => hy, rfl, rfl⟩
  | set =>
    refine ⟨Value.setItems xs, rfl, fun _ => Value.mem_of_mem_setItems, ?_, rfl⟩
    rw [Shape.wrap, Shape.wrap, Value.setItems_setItems h]
  | frozenset =>
    refine ⟨Value.setItems xs, rfl, fun _ => Value.mem_of_mem_setItems, ?_, rfl⟩
    rw [Shape.wrap, Shape.wrap, Value.setItems_setItems h]

theorem accept_accept_sequence {shape : Shape} {τ : OptionType} {ps : List String} {v : Value}
    (h : accept (.sequence shape τ) (.list (ps.map .text)) = .ok v) :
    accept (.sequence shape τ) v = .ok v ∧ v.text? = none := by
  obtain ⟨xs, hxs, rfl⟩ := (accept_sequence_eq_ok_iff rfl).mp h
  have hsettled : ∀ x ∈ xs, Settled shape τ x := by
    intro x hx
    have hmem : Except.ok x ∈ (ps.map Value.text).map fun x => accept τ x >>= itemFor shape := by
      rw [hxs]
      exact List.mem_map_of_mem hx
    rw [List.map_map] at hmem
    obtain ⟨p, -, hp⟩ := List.mem_map.mp hmem
    exact settled_of_text hp
  obtain ⟨ys, hitems, hsub, hwrap, htext⟩ := wrap_items (fun x hx => (hsettled x hx).isLeaf_eq) shape
  refine ⟨(accept_sequence_eq_ok_iff hitems).mpr ⟨ys, ?_, hwrap⟩, htext⟩
  exact List.map_congr_left fun y hy => (hsettled y (hsub y hy)).accept_eq

theorem acceptEach_acceptEach_texts {τs : List OptionType} {ps : List String} {xs : List Value}
    (h : acceptEach τs (ps.map .text) = .ok xs) :
    acceptEach τs xs = .ok xs ∧ xs.length = τs.length := by
  induction τs generalizing ps xs with
  | nil =>
    rw [acceptEach] at h
    cases h
    exact ⟨rfl, rfl⟩
  | cons τ τs ih =>
    cases ps with
    | nil =>
      rw [List.map_nil, acceptEach] at h
      obtain ⟨p, hp, -⟩ := map_eq_ok_iff.mp h
      cases (both_eq_ok_iff.mp hp).1
    | cons p ps =>
      rw [List.map_cons, acceptEach] at h
      obtain ⟨⟨x, xs⟩, hx, rfl⟩ := map_eq_ok_iff.mp h
      obtain ⟨hfirst, hrest⟩ := both_eq_ok_iff.mp hx
      obtain ⟨hxs, hlength⟩ := ih hrest
      refine ⟨?_, by rw [List.length_cons, List.length_cons, hlength]⟩
      rw [acceptEach, accept_accept_text hfirst, hxs]
      rfl

theorem accept_accept_record {τs : List OptionType} {ps : List String} {v : Value}
    (h : accept (.record τs) (.list (ps.map .text)) = .ok v) :
    accept (.record τs) v = .ok v ∧ v.text? = none := by
  unfold accept at h
  simp only [Value.items?] at h
  split at h
  · cases h
  · obtain ⟨xs, hxs, rfl⟩ := map_eq_ok_iff.mp h
    obtain ⟨hagain, hlength⟩ := acceptEach_acceptEach_texts hxs
    refine ⟨?_, rfl⟩
    unfold accept
    simp only [Value.items?]
    rw [if_neg (by omega), hagain]
    rfl

/-! ### Options -/

theorem accept_unflatten_text {τ : OptionType} {s : String} {v : Value}
    (h : accept τ (τ.unflatten (.text s)) = .ok v) : accept τ (τ.unflatten v) = .ok v := by
  have hplain : τ.isSequence = false → ∀ w, τ.unflatten w = w := by
    intro hs w
    unfold unflatten
    rw [hs]
  have hsequence : τ.isSequence = true → v.text? = none → τ.unflatten v = v := by
    intro hs ht
    unfold unflatten
    rw [hs, ht]
  cases hs : τ.isSequence with
  | false =>
    rw [hplain hs] at h ⊢
    exact accept_accept_text h
  | true =>
    have htext : τ.unflatten (.text s) = .list ((pieces s).map .text) := by
      unfold unflatten
      rw [hs]
      rfl
    rw [htext] at h
    have hagain : accept τ v = .ok v ∧ v.text? = none := by
      cases τ with
      | sequence shape τ => exact accept_accept_sequence h
      | record τs => exact accept_accept_record h
      | _ => cases hs
    rw [hsequence hs hagain.2]
    exact hagain.1

/-- No text stands for a map. -/
theorem ne_map_of_accept_unflatten {τ : OptionType} {s : String} {v : Value}
    (h : accept τ (τ.unflatten (.text s)) = .ok v) (es : List (Value × Value)) : v ≠ .map es := by
  rintro rfl
  have hleaf : ∀ {s}, accept τ (.text s) ≠ .ok (.map es) := by
    intro s h
    cases isLeaf_of_accept_text h
  have hitems : accept τ (.list ((pieces s).map .text)) = .ok (.map es) → τ.isSequence = false := by
    intro h
    cases τ with
    | sequence shape τ =>
      obtain ⟨xs, -, hw⟩ := (accept_sequence_eq_ok_iff rfl).mp h
      cases shape <;> cases hw
    | record τs =>
      unfold accept at h
      simp only [Value.items?] at h
      split at h
      · cases h
      · obtain ⟨xs, -, hw⟩ := map_eq_ok_iff.mp h
        cases hw
    | _ => rfl
  cases hs : τ.isSequence with
  | false =>
    unfold unflatten at h
    rw [hs] at h
    exact hleaf h
  | true =>
    unfold unflatten at h
    rw [hs] at h
    cases hs.symm.trans (hitems h)

end ScanJobs.OptionType

namespace ScanJobs.Config

open Schema

/-- **What an option takes a text for is taken as it is.** -/
theorem validate_validate_text {o : OptionRef} {s : String} {v : Value}
    (h : validate o (.text s) = .ok v) : validate o v = .ok v := by
  have haccept := mapError_eq_ok_iff.mp (mapError_eq_ok_iff.mp h)
  have hagain : acceptAt o.site o.type v = .ok v :=
    mapError_eq_ok_iff.mpr (OptionType.accept_unflatten_text haccept)
  exact mapError_eq_ok_iff.mpr hagain

theorem ne_map_of_validate_text {o : OptionRef} {s : String} {v : Value}
    (h : validate o (.text s) = .ok v) (es : List (Value × Value)) : v ≠ .map es :=
  OptionType.ne_map_of_accept_unflatten (mapError_eq_ok_iff.mp (mapError_eq_ok_iff.mp h)) es

end ScanJobs.Config
