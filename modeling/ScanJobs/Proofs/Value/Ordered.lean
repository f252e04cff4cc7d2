import ScanJobs.Value.Order
import ScanJobs.Proofs.Fallible
import ScanJobs.Proofs.Value.Sets

/-! # Sets in ascending order

Values that can be compared are sorted (`exists_sorted`). If each two of them are also one when they
precede each other, as integers and texts are (`orderly_ints`, `orderly_texts`), then the items of a
set make up the same set in whatever order they come (`setItems_of_perm`). -/

namespace ScanJobs.Value

/-- **Any two of the values can be compared**, and are one if each of them precedes the other. -/
def Orderly (xs : List Value) : Prop :=
  ∀ x ∈ xs, ∀ y ∈ xs, (∃ b, compare .below x y = .ok b) ∧
    (precedes x y = true → precedes y x = true → x = y)

theorem Orderly.subset {xs ys : List Value} (h : Orderly xs) (hsub : ∀ y ∈ ys, y ∈ xs) :
    Orderly ys :=
  fun x hx y hy => h x (hsub x hx) y (hsub y hy)

/-- It is enough that each of the values can be compared with those before it. -/
theorem checkComparable_of_pairwise {xs : List Value}
    (h : xs.Pairwise fun x y => ∃ b, compare .below y x = .ok b) : checkComparable xs = .ok () := by
  induction xs with
  | nil => rfl
  | cons x xs ih =>
    have hrest := ih h.of_cons
    cases xs with
    | nil => rfl
    | cons y xs =>
      obtain ⟨b, hb⟩ := List.rel_of_pairwise_cons h (List.mem_cons_self ..)
      rw [checkComparable, hb]
      exact hrest

theorem pairwise_of_forall_mem {R : Value → Value → Prop} {xs : List Value}
    (h : ∀ x ∈ xs, ∀ y ∈ xs, R x y) : xs.Pairwise R :=
  List.pairwise_iff_getElem.mpr fun _ _ hi hj _ =>
    h _ (List.getElem_mem hi) _ (List.getElem_mem hj)

/-- **Values that can be compared are sorted.** -/
theorem exists_sorted {xs : List Value} (h : Orderly xs) :
    ∃ ys, sorted xs = .ok ys ∧ ys.Perm xs := by
  refine ⟨xs.mergeSort notAfter, ?_, List.mergeSort_perm _ _⟩
  have hpairs := pairwise_of_forall_mem fun x hx y hy => (h y hy x hx).1
  rw [sorted, checkComparable_of_pairwise hpairs]
  rfl

theorem distinct_setItems {xs : List Value} (h : ∀ x ∈ xs, x.isLeaf = true) :
    Distinct (setItems xs) := by
  obtain ⟨hd, hmem⟩ := distinct_spec xs
  exact hd.perm (fun x hx => h x (hmem x hx)) (setItems_perm xs).symm

/-- **The items of a set make up the set in any order.** -/
theorem setItems_of_perm {xs ys : List Value} (hleaf : ∀ x ∈ xs, x.isLeaf = true)
    (hord : Orderly xs) (hp : ys.Perm (setItems xs)) : setItems ys = setItems xs := by
  have hitems : ∀ x ∈ setItems xs, x.isLeaf = true := fun x hx => hleaf x (mem_of_mem_setItems hx)
  have hleaf' : ∀ y ∈ ys, y.isLeaf = true := fun y hy => hitems y (hp.mem_iff.mp hy)
  have hys : setItems ys = ys.mergeSort precedes := by
    rw [setItems, distinct_eq_self ((distinct_setItems hleaf).perm hitems hp.symm)]
  have hxs : setItems xs = (setItems xs).mergeSort precedes := by
    have h := setItems_setItems hleaf
    rw [setItems, distinct_eq_self (distinct_setItems hleaf)] at h
    exact h.symm
  rw [hys, hxs]
  -- both are in order, in which each item has one place
  refine List.Perm.eq_of_pairwise (fun a b ha hb hab hba => ?_) (pairwise_mergeSort_leaf hleaf')
    (pairwise_mergeSort_leaf hitems) ?_
  · have ha' : a ∈ xs := mem_of_mem_setItems (hp.mem_iff.mp (List.mem_mergeSort.mp ha))
    have hb' : b ∈ xs := mem_of_mem_setItems (List.mem_mergeSort.mp hb)
    exact (hord a ha' b hb').2 hab hba
  · exact (List.mergeSort_perm _ _).trans (hp.trans (List.mergeSort_perm _ _).symm)

/-! ### Integers and texts -/

theorem orderly_ints {xs : List Value} (h : ∀ x ∈ xs, ∃ n, x = .int n) : Orderly xs := by
  intro x hx y hy
  obtain ⟨m, rfl⟩ := h x hx
  obtain ⟨n, rfl⟩ := h y hy
  have hle : ∀ {m n : Int}, precedes (.int m) (.int n) = true → m ≤ n := by
    intro m n h
    have h' : Number.le (.dyadic m 0) (.dyadic n 0) = true := h
    simpa [Number.le_dyadic_iff, Number.rational] using h'
  refine ⟨⟨_, rfl⟩, fun hxy hyx => ?_⟩
  rw [le_antisymm (hle hxy) (hle hyx)]

theorem orderly_texts {xs : List Value} (h : ∀ x ∈ xs, ∃ s, x = .text s) : Orderly xs := by
  intro x hx y hy
  obtain ⟨s, rfl⟩ := h x hx
  obtain ⟨t, rfl⟩ := h y hy
  have hle : ∀ {s t : String}, precedes (.text s) (.text t) = true → s ≤ t :=
    fun h => of_decide_eq_true h
  refine ⟨⟨_, rfl⟩, fun hxy hyx => ?_⟩
  rw [String.le_antisymm (hle hxy) (hle hyx)]

/-! ### In whatever order they come -/

/-- **The values `f a` are compared as their keys**, which are in a total order. -/
structure ComparedBy {α : Type} (f : α → Value) (le : α → α → Bool) : Prop where
  injective : Function.Injective f
  compare : ∀ a b, ∃ r, Value.compare .below (f b) (f a) = .ok r
  notAfter : ∀ a b, Value.notAfter (f a) (f b) = le a b
  trans : ∀ a b c, le a b = true → le b c = true → le a c = true
  total : ∀ a b, (le a b || le b a) = true
  antisymm : ∀ a b, le a b = true → le b a = true → a = b

namespace ComparedBy

variable {α : Type} {f : α → Value} {le : α → α → Bool}

/-- They are sorted as their keys. -/
theorem sorted_map (h : ComparedBy f le) (as : List α) :
    sorted (as.map f) = .ok ((as.mergeSort le).map f) := by
  have hpairs : (as.map f).Pairwise fun x y => ∃ r, Value.compare .below y x = .ok r :=
    pairwise_of_forall_mem fun x hx y hy => by
      obtain ⟨a, -, rfl⟩ := List.mem_map.mp hx
      obtain ⟨b, -, rfl⟩ := List.mem_map.mp hy
      exact h.compare a b
  have hmap : (as.mergeSort le).map f = (as.map f).mergeSort Value.notAfter :=
    List.map_mergeSort fun a _ b _ => (h.notAfter a b).symm
  rw [sorted, checkComparable_of_pairwise hpairs, hmap]
  rfl

theorem mergeSort_eq_of_perm (h : ComparedBy f le) {as bs : List α} (hp : as.Perm bs) :
    as.mergeSort le = bs.mergeSort le :=
  List.Perm.eq_of_pairwise (fun a b _ _ => h.antisymm a b) (List.pairwise_mergeSort h.trans h.total as)
    (List.pairwise_mergeSort h.trans h.total bs)
    ((List.mergeSort_perm as le).trans (hp.trans (List.mergeSort_perm bs le).symm))

/-- **They are sorted alike in whatever order they come.** -/
theorem sorted_of_perm (h : ComparedBy f le) {xs zs : List Value} (hxs : ∀ x ∈ xs, ∃ a, f a = x)
    (hp : zs.Perm xs) : ∃ ys, sorted xs = .ok ys ∧ sorted zs = .ok ys := by
  have hkeys : ∀ {us : List Value}, (∀ u ∈ us, ∃ a, f a = u) → ∃ as : List α, as.map f = us := by
    intro us hus
    have hrange : us ∈ Set.range (List.map f) := by
      rw [Set.range_list_map]
      exact hus
    exact hrange
  obtain ⟨as, rfl⟩ := hkeys hxs
  obtain ⟨bs, rfl⟩ := hkeys fun z hz => hxs z (hp.mem_iff.mp hz)
  have hperm : bs.Perm as := (List.map_perm_map_iff h.injective).mp hp
  exact ⟨_, h.sorted_map as, by rw [h.sorted_map bs, h.mergeSort_eq_of_perm hperm]⟩

end ComparedBy

theorem comparedBy_int : ComparedBy Value.int fun m n => decide (m ≤ n) where
  injective _ _ := Value.int.inj
  compare _ _ := ⟨_, rfl⟩
  notAfter m n := by
    have hlt : notAfter (.int m) (.int n) = !Number.lt (.dyadic n 0) (.dyadic m 0) := rfl
    have hiff : Number.lt (.dyadic n 0) (.dyadic m 0) = true ↔ n < m := by
      simp [Number.lt_dyadic_iff, Number.rational]
    rw [hlt, Bool.eq_iff_iff, Bool.not_eq_true', ← Bool.not_eq_true, hiff, decide_eq_true_eq]
    exact Int.not_lt
  trans := by
    intro a b c hab hbc
    simp only [decide_eq_true_eq] at hab hbc ⊢
    exact Int.le_trans hab hbc
  total a b := by simpa using Int.le_total a b
  antisymm a b hab hba := Int.le_antisymm (of_decide_eq_true hab) (of_decide_eq_true hba)

theorem comparedBy_text : ComparedBy Value.text fun s t => decide (s ≤ t) where
  injective _ _ := Value.text.inj
  compare _ _ := ⟨_, rfl⟩
  notAfter s t := by
    have hlt : notAfter (.text s) (.text t) = !decide (t < s) := rfl
    rw [hlt, Bool.eq_iff_iff, Bool.not_eq_true', decide_eq_false_iff_not, decide_eq_true_eq]
    exact String.not_lt
  trans := by
    intro a b c hab hbc
    simp only [decide_eq_true_eq] at hab hbc ⊢
    exact String.le_trans hab hbc
  total a b := by simpa using String.le_total a b
  antisymm a b hab hba := String.le_antisymm (of_decide_eq_true hab) (of_decide_eq_true hba)

end ScanJobs.Value
