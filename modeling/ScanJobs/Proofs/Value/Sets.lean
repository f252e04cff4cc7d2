import ScanJobs.Value.Basic
import ScanJobs.Proofs.Number.Order

/-! # Sets of values without parts

A set lists its items in one fixed order. For values without parts this is a total order
(`Rank.precedes_trans`, `Rank.precedes_total`) and equality looks the same from both sides
(`sameLeaf_comm`), so the items of a set are those of the set of its items (`setItems_setItems`). -/

namespace ScanJobs.Value

/-- The value has no parts. -/
def isLeaf : Value → Bool
  | .list _ | .tuple _ | .set _ | .frozenset _ | .map _ => false
  | _ => true

theorem items?_of_isLeaf {v : Value} (h : v.isLeaf = true) : v.items? = .none := by
  cases v with
  | list _ | tuple _ | set _ | frozenset _ => cases h
  | _ => rfl

/-! ### Equality -/

theorem text?_of_number? {x : Value} {n : Number} (h : x.number? = some n) : x.text? = .none := by
  unfold text?
  split
  · cases h
  · cases h
  · rfl

theorem same_leaf {a : Value} (ha : a.isLeaf = true) (b : Value) : same a b = sameLeaf a b := by
  cases a
  case list | tuple | set | frozenset | map => cases ha
  all_goals
    unfold same
    rfl

theorem sameOther_comm (a b : Value) : sameOther a b = sameOther b a := by
  cases a <;> cases b <;> first
    | rfl
    | exact Bool.beq_comm

theorem sameLeaf_comm (a b : Value) : sameLeaf a b = sameLeaf b a := by
  unfold sameLeaf
  cases a.number? <;> cases b.number?
  case some.some x y => exact Number.eq_comm x y
  all_goals
    cases a.text? <;> cases b.text? <;> first
      | exact sameOther_comm a b
      | exact Bool.beq_comm

/-- All values are among others if each is the same as one of them. -/
theorem allIn_iff {xs ys : List Value} :
    allIn xs ys = true ↔ ∀ x ∈ xs, ∃ y ∈ ys, same x y = true := by
  induction xs with
  | nil => simp [allIn]
  | cons x xs ih => simp [allIn, ih]

/-! ### The order -/

/-- The order of ranks. -/
def Rank.precedes : Rank → Rank → Bool
  | .number x, .number y => numberPrecedes x y
  | .number _, _ => true
  | .text _, .number _ => false
  | .text s, .text t => s ≤ t
  | .text _, _ => true
  | .member s, .member t => s ≤ t
  | .member _, .other => true
  | .member _, _ => false
  | .other, .other => true
  | .other, _ => false

theorem leafPrecedes_eq (a b : Value) : leafPrecedes a b = a.rank.precedes b.rank := by
  unfold leafPrecedes
  cases a.rank <;> cases b.rank <;> rfl

theorem numberPrecedes_total (x y : Number) :
    numberPrecedes x y = true ∨ numberPrecedes y x = true := by
  cases x <;> cases y
  case dyadic.dyadic m₁ e₁ m₂ e₂ =>
    exact (le_total (Number.rational m₁ e₁) (Number.rational m₂ e₂)).imp
      Number.le_dyadic_iff.mpr Number.le_dyadic_iff.mpr
  case infinite.infinite s t => cases s <;> cases t <;> decide
  all_goals simp [numberPrecedes, Number.le, Number.lt, Number.eq]

theorem numberPrecedes_trans {x y z : Number} (h : numberPrecedes x y = true)
    (h' : numberPrecedes y z = true) : numberPrecedes x z = true := by
  cases x <;> cases y <;> cases z
  case dyadic.dyadic.dyadic =>
    exact Number.le_dyadic_iff.mpr
      (le_trans (Number.le_dyadic_iff.mp h) (Number.le_dyadic_iff.mp h'))
  case infinite.infinite.infinite s t u =>
    revert h h'
    cases s <;> cases t <;> cases u <;> decide
  all_goals simp_all [numberPrecedes, Number.le, Number.lt, Number.eq]

theorem Rank.precedes_total (r s : Rank) : r.precedes s = true ∨ s.precedes r = true := by
  cases r <;> cases s
  case number.number x y => exact numberPrecedes_total x y
  case text.text s t => simpa [precedes] using String.le_total s t
  case member.member s t => simpa [precedes] using String.le_total s t
  all_goals simp [precedes]

theorem Rank.precedes_trans {r s t : Rank} (h : r.precedes s = true) (h' : s.precedes t = true) :
    r.precedes t = true := by
  cases r <;> cases s <;> cases t
  case number.number.number => exact numberPrecedes_trans h h'
  case text.text.text =>
    simp only [precedes, decide_eq_true_eq] at h h' ⊢
    exact String.le_trans h h'
  case member.member.member =>
    simp only [precedes, decide_eq_true_eq] at h h' ⊢
    exact String.le_trans h h'
  all_goals simp_all [precedes]

/-! ### Sets -/

theorem precedes_leaf {a : Value} (ha : a.isLeaf = true) (b : Value) :
    precedes a b = a.rank.precedes b.rank := by
  rw [← leafPrecedes_eq]
  cases a
  case list | tuple | set | frozenset | map => cases ha
  all_goals
    unfold precedes
    rfl

/-- The items of a set stand in order. -/
theorem pairwise_mergeSort_leaf {xs : List Value} (h : ∀ x ∈ xs, x.isLeaf = true) :
    (xs.mergeSort precedes).Pairwise fun a b => precedes a b = true := by
  -- sorting the items is sorting their ranks, on which the order is total
  have hmap : (xs.mergeSort precedes).map rank = (xs.map rank).mergeSort Rank.precedes :=
    List.map_mergeSort fun a ha b _ => precedes_leaf (h a ha) b
  have hsorted : ((xs.map rank).mergeSort Rank.precedes).Pairwise
      fun r s => r.precedes s = true := by
    apply List.pairwise_mergeSort
    · exact fun r s t => Rank.precedes_trans
    · intro r s
      rw [Bool.or_eq_true]
      exact Rank.precedes_total r s
  rw [← hmap, List.pairwise_map] at hsorted
  refine hsorted.imp_of_mem fun ha _ hab => ?_
  rw [precedes_leaf (h _ (List.mem_mergeSort.mp ha))]
  exact hab

/-- No item comes after one that is the same. -/
def Distinct (xs : List Value) : Prop := xs.Pairwise fun a b => same b a = false

theorem isIn_eq_false_iff {x : Value} {xs : List Value} :
    isIn x xs = false ↔ ∀ y ∈ xs, same x y = false := by
  simp [isIn]

/-- The values that are the same as none of those kept, nor of those before them. -/
theorem distinct_foldl {xs kept : List Value} (h : Distinct (kept ++ xs)) :
    xs.foldl (fun kept x => if isIn x kept then kept else kept ++ [x]) kept = kept ++ xs := by
  induction xs generalizing kept with
  | nil => exact (List.append_nil kept).symm
  | cons x xs ih =>
    have hx : isIn x kept = false :=
      isIn_eq_false_iff.mpr fun y hy =>
        (List.pairwise_append.mp h).2.2 y hy x (List.mem_cons_self ..)
    have hassoc : kept ++ x :: xs = kept ++ [x] ++ xs := by simp
    rw [List.foldl_cons, hx, hassoc]
    exact ih (hassoc ▸ h)

theorem distinct_eq_self {xs : List Value} (h : Distinct xs) : distinct xs = xs := by
  have hnone : Distinct ([] ++ xs) := h
  exact distinct_foldl hnone

theorem distinct_spec (xs : List Value) : Distinct (distinct xs) ∧ ∀ x ∈ distinct xs, x ∈ xs := by
  -- what is kept is distinct all the time, and was there
  have hfold : ∀ (xs kept : List Value), Distinct kept →
      Distinct (xs.foldl (fun kept x => if isIn x kept then kept else kept ++ [x]) kept) ∧
      ∀ x ∈ xs.foldl (fun kept x => if isIn x kept then kept else kept ++ [x]) kept,
        x ∈ kept ∨ x ∈ xs := by
    intro xs
    induction xs with
    | nil => exact fun kept h => ⟨h, fun x hx => .inl hx⟩
    | cons x xs ih =>
      intro kept h
      rw [List.foldl_cons]
      cases hx : isIn x kept with
      | true =>
        obtain ⟨hd, hmem⟩ := ih kept h
        exact ⟨hd, fun y hy => (hmem y hy).imp_right (List.mem_cons_of_mem _)⟩
      | false =>
        have hnew : Distinct (kept ++ [x]) := by
          refine List.pairwise_append.mpr ⟨h, List.pairwise_singleton .., fun y hy z hz => ?_⟩
          rw [List.mem_singleton] at hz
          exact hz ▸ isIn_eq_false_iff.mp hx y hy
        obtain ⟨hd, hmem⟩ := ih _ hnew
        refine ⟨hd, fun y hy => ?_⟩
        rcases hmem y hy with hk | hk
        · rcases List.mem_append.mp hk with hk | hk
          · exact .inl hk
          · exact .inr (List.mem_singleton.mp hk ▸ List.mem_cons_self ..)
        · exact .inr (List.mem_cons_of_mem _ hk)
  obtain ⟨hd, hmem⟩ := hfold xs [] List.Pairwise.nil
  exact ⟨hd, fun x hx => (hmem x hx).resolve_left (List.not_mem_nil)⟩

theorem setItems_perm (xs : List Value) : (setItems xs).Perm (distinct xs) :=
  List.mergeSort_perm _ _

theorem mem_of_mem_setItems {x : Value} {xs : List Value} (h : x ∈ setItems xs) : x ∈ xs :=
  (distinct_spec xs).2 x ((setItems_perm xs).mem_iff.mp h)

/-- Leaves stay distinct in any order. -/
theorem Distinct.perm {xs ys : List Value} (h : Distinct xs) (hleaf : ∀ x ∈ xs, x.isLeaf = true)
    (hp : xs.Perm ys) : Distinct ys := by
  have hsymm : ys.Pairwise fun a b => a.isLeaf = true → b.isLeaf = true → same b a = false := by
    refine hp.pairwise (h.imp fun hab _ _ => hab) fun {a b} hab hb ha => ?_
    rw [same_leaf ha, sameLeaf_comm, ← same_leaf hb]
    exact hab ha hb
  exact hsymm.imp_of_mem fun ha hb hab =>
    hab (hleaf _ (hp.mem_iff.mpr ha)) (hleaf _ (hp.mem_iff.mpr hb))

/-- **The items of a set make up the same set.** -/
theorem setItems_setItems {xs : List Value} (h : ∀ x ∈ xs, x.isLeaf = true) :
    setItems (setItems xs) = setItems xs := by
  obtain ⟨hd, hmem⟩ := distinct_spec xs
  have hleaf : ∀ x ∈ distinct xs, x.isLeaf = true := fun x hx => h x (hmem x hx)
  rw [setItems, distinct_eq_self (hd.perm hleaf (setItems_perm xs).symm)]
  exact List.mergeSort_of_pairwise (pairwise_mergeSort_leaf hleaf)

end ScanJobs.Value
