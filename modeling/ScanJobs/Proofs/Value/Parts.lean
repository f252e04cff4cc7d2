import ScanJobs.OptionType.Basic
import ScanJobs.Proofs.Lists
import ScanJobs.Proofs.Value.Sets

/-! # The parts of values

A value is a leaf, a container of items or a map (`Value.induction_on_parts`). Equality compares leaves with
leaves, maps with maps and containers with containers, and comes down to the parts (`same_container_iff`,
`same_map_iff`). -/

namespace ScanJobs

/-- The container of this shape, with these as its items. -/
def Shape.container : Shape → List Value → Value
  | .list, xs => .list xs
  | .tuple, xs => .tuple xs
  | .set, xs => .set xs
  | .frozenset, xs => .frozenset xs

/-- A container is made of its items, or of the set of them. -/
theorem Shape.wrap_eq (shape : Shape) (xs : List Value) :
    shape.wrap xs = shape.container (if shape.isSet then Value.setItems xs else xs) := by
  cases shape <;> rfl

theorem Shape.wrap_of_isSet {shape : Shape} (h : shape.isSet = true) (xs : List Value) :
    shape.wrap xs = shape.container (Value.setItems xs) := by
  rw [Shape.wrap_eq, if_pos h]

theorem Shape.container_inj {s t : Shape} {xs ys : List Value} :
    s.container xs = t.container ys ↔ s = t ∧ xs = ys := by
  cases s <;> cases t <;> simp [Shape.container]

theorem Shape.isLeaf_container (s : Shape) (xs : List Value) : (s.container xs).isLeaf = false := by
  cases s <;> rfl

theorem Shape.items?_container (s : Shape) (xs : List Value) :
    (s.container xs).items? = some xs := by
  cases s <;> rfl

theorem Shape.container_ne_map (s : Shape) (xs : List Value) (es : List (Value × Value)) :
    s.container xs ≠ .map es := by
  cases s <;> exact nofun

namespace Value

theorem items?_eq_some_iff {v : Value} {xs : List Value} :
    v.items? = some xs ↔ ∃ s : Shape, v = s.container xs := by
  constructor
  · intro h
    cases v with
    | list ys =>
      cases h
      exact ⟨.list, rfl⟩
    | tuple ys =>
      cases h
      exact ⟨.tuple, rfl⟩
    | set ys =>
      cases h
      exact ⟨.set, rfl⟩
    | frozenset ys =>
      cases h
      exact ⟨.frozenset, rfl⟩
    | _ => cases h
  · rintro ⟨s, rfl⟩
    exact s.items?_container xs

/-- **A value is a leaf, a container or a map.** -/
theorem parts_cases (v : Value) :
    v.isLeaf = true ∨ (∃ (s : Shape) (xs : List Value), v = s.container xs) ∨ ∃ es, v = .map es := by
  cases hitems : v.items? with
  | some xs =>
    obtain ⟨s, hs⟩ := items?_eq_some_iff.mp hitems
    exact .inr (.inl ⟨s, xs, hs⟩)
  | none =>
    cases v with
    | list xs => cases hitems
    | tuple xs => cases hitems
    | set xs => cases hitems
    | frozenset xs => cases hitems
    | map es => exact .inr (.inr ⟨es, rfl⟩)
    | _ => exact .inl rfl

/-- **What holds of leaves, and of a value if it does of its parts, holds of all values.** -/
theorem induction_on_parts {P : Value → Prop} (leaf : ∀ v, v.isLeaf = true → P v)
    (container : ∀ (s : Shape) xs, (∀ x ∈ xs, P x) → P (s.container xs))
    (map : ∀ es : List (Value × Value), (∀ e ∈ es, P e.1) → (∀ e ∈ es, P e.2) → P (.map es))
    (v : Value) : P v := by
  -- `P` goes along with the same for lists of items and of entries
  refine Value.rec (motive_1 := P) (motive_2 := fun xs => ∀ x ∈ xs, P x)
    (motive_3 := fun es => (∀ e ∈ es, P e.1) ∧ ∀ e ∈ es, P e.2)
    (motive_4 := fun e => P e.1 ∧ P e.2) ?none ?bool ?int ?float ?text ?bytes ?member ?list ?tuple
    ?set ?frozenset ?map ?noItems ?items ?noEntries ?entries ?entry v
  case list => exact fun xs => container .list xs
  case tuple => exact fun xs => container .tuple xs
  case set => exact fun xs => container .set xs
  case frozenset => exact fun xs => container .frozenset xs
  case map => exact fun es h => map es h.1 h.2
  case noItems => exact nofun
  case items =>
    intro x xs hx hxs y hy
    rcases List.mem_cons.mp hy with rfl | hy
    · exact hx
    · exact hxs y hy
  case noEntries => exact ⟨nofun, nofun⟩
  case entries =>
    rintro e es ⟨hkey, hvalue⟩ ⟨hkeys, hvalues⟩
    exact ⟨List.forall_mem_cons.mpr ⟨hkey, hkeys⟩, List.forall_mem_cons.mpr ⟨hvalue, hvalues⟩⟩
  case entry => exact fun k v hk hv => ⟨hk, hv⟩
  all_goals
    intros
    exact leaf _ rfl

/-! ### Equality of parts -/

theorem sameItems_iff {xs ys : List Value} :
    sameItems xs ys = true ↔ List.Forall₂ (fun x y => same x y = true) xs ys := by
  induction xs generalizing ys with
  | nil => cases ys <;> simp [sameItems]
  | cons x xs ih => cases ys <;> simp [sameItems, ih]

theorem entriesIn_iff {es fs : List (Value × Value)} :
    entriesIn es fs = true ↔ ∀ e ∈ es, ∃ f ∈ fs, same e.1 f.1 = true ∧ same e.2 f.2 = true := by
  induction es with
  | nil => simp [entriesIn]
  | cons e es ih =>
    obtain ⟨k, v⟩ := e
    simp [entriesIn, ih]

/-- A value with parts is neither a number nor a text. -/
theorem sameLeaf_eq_false {a : Value} (h : a.isLeaf = false) (b : Value) : sameLeaf a b = false := by
  have hnumber : a.number? = .none := by
    cases a with
    | list | tuple | set | frozenset | map => rfl
    | _ => cases h
  have htext : a.text? = .none := by
    cases a with
    | list | tuple | set | frozenset | map => rfl
    | _ => cases h
  unfold sameLeaf
  rw [hnumber, htext]
  cases a with
  | list | tuple | set | frozenset | map => cases b <;> rfl
  | _ => cases h

theorem same_leaf_left {a b : Value} (ha : a.isLeaf = true) (hb : b.isLeaf = false) :
    same a b = false := by
  rw [same_leaf ha, sameLeaf_comm, sameLeaf_eq_false hb]

theorem same_leaf_right {a b : Value} (ha : a.isLeaf = false) (hb : b.isLeaf = true) :
    same a b = false := by
  have hleaf : same a b = sameLeaf a b := by
    unfold same
    split <;> first
      | rfl
      | cases hb
  rw [hleaf, sameLeaf_eq_false ha]

theorem same_container_map (s : Shape) (xs : List Value) (es : List (Value × Value)) :
    same (s.container xs) (.map es) = false ∧ same (.map es) (s.container xs) = false := by
  cases s <;> simp [Shape.container, same, sameLeaf, number?, integer?, text?, sameOther]

/-- **Containers are the same** if both are sets and each item of one is in the other, or if they are of
one shape and the same item by item. -/
theorem same_container_iff {s t : Shape} {xs ys : List Value} :
    same (s.container xs) (t.container ys) = true ↔
      (s.isSet = true ∧ t.isSet = true ∧ xs.length = ys.length ∧
        ∀ x ∈ xs, ∃ y ∈ ys, same x y = true) ∨
      (s.isSet = false ∧ s = t ∧ List.Forall₂ (fun x y => same x y = true) xs ys) := by
  cases s <;> cases t <;>
    simp [Shape.container, Shape.isSet, same, sameItems_iff, allIn_iff, sameLeaf, number?, integer?,
      text?, sameOther]

theorem same_map_iff {es fs : List (Value × Value)} :
    same (.map es) (.map fs) = true ↔ es.length = fs.length ∧
      ∀ e ∈ es, ∃ f ∈ fs, same e.1 f.1 = true ∧ same e.2 f.2 = true := by
  simp [same, entriesIn_iff]

end Value

end ScanJobs
