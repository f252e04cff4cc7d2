import ScanJobs.Value.Basic

/-! # Comparing values

Numbers compare by value, texts and bytes by their units, sequences of one type by their first
different items, sets by inclusion. All other pairs are not comparable: `compare` then names the two
types. `sorted` sorts values that are comparable.
-/

namespace ScanJobs.Value

/-- A comparison. -/
inductive Comparison where
  | below
  | atLeast
deriving DecidableEq, Repr

/-- How the comparison is written. -/
def Comparison.sign : Comparison → String
  | .below => "<"
  | .atLeast => ">="

/-- Two types whose values cannot be compared. -/
structure Incomparable where
  sign : String
  left : String
  right : String
deriving DecidableEq, Repr

/-- The comparison of two numbers. -/
def Comparison.numbers : Comparison → Number → Number → Bool
  | .below, a, b => a.lt b
  | .atLeast, a, b => b.le a

/-- The comparison for a total order, given whether the first comes before the second and whether
they are equal. -/
def Comparison.ofOrder : Comparison → Bool → Bool → Bool
  | .below, before, _ => before
  | .atLeast, before, _ => !before

/-- The comparison of two sets by inclusion. -/
def Comparison.sets : Comparison → List Value → List Value → Bool
  | .below, xs, ys => xs.length < ys.length && allIn xs ys
  | .atLeast, xs, ys => allIn ys xs

/-- Compares values without parts, and sets. -/
def compareLeaf (c : Comparison) (a b : Value) : Except Incomparable Bool :=
  match a.number?, b.number? with
  | some x, some y => .ok (c.numbers x y)
  | _, _ =>
    match a.text?, b.text? with
    | some s, some t => .ok (c.ofOrder (s < t) (s == t))
    | _, _ =>
      match a, b with
      | .bytes x, .bytes y => .ok (c.ofOrder (decide (x < y)) (x == y))
      | .set xs, .set ys | .set xs, .frozenset ys | .frozenset xs, .set ys
      | .frozenset xs, .frozenset ys => .ok (c.sets xs ys)
      | _, _ => .error ⟨c.sign, a.typeName, b.typeName⟩

mutual

/-- **Compares two values.** -/
def compare (c : Comparison) : Value → Value → Except Incomparable Bool
  | .list xs, .list ys => compareItems c xs ys
  | .tuple xs, .tuple ys => compareItems c xs ys
  | a, b => compareLeaf c a b

/-- Compares by the first different items, or by the lengths. -/
def compareItems (c : Comparison) : List Value → List Value → Except Incomparable Bool
  | x :: xs, y :: ys => if same x y then compareItems c xs ys else compare c x y
  | xs, ys => .ok (c.ofOrder (xs.length < ys.length) (xs.length == ys.length))

end

/-- Each value can be compared with the one before it. -/
def checkComparable : List Value → Except Incomparable Unit
  | x :: y :: xs => do
    let _ ← compare .below y x
    checkComparable (y :: xs)
  | _ => .ok ()

/-- The first value does not come after the second. -/
def notAfter (a b : Value) : Bool :=
  match compare .below b a with
  | .ok after => !after
  | .error _ => true

/-- The values in ascending order, if they are comparable. -/
def sorted (xs : List Value) : Except Incomparable (List Value) := do
  checkComparable xs
  return xs.mergeSort notAfter

/-! ## The items of sets -/

/-- An order in which sets hand out their items. -/
structure Listing where
  of : List Value → List Value
  perm : ∀ xs, (of xs).Perm xs

/-- Texts before all other values. -/
def textsFirst (xs : List Value) : List Value :=
  xs.filter (·.text?.isSome) ++ xs.filter (·.text?.isNone)

theorem textsFirst_perm (xs : List Value) : (textsFirst xs).Perm xs := by
  unfold textsFirst
  induction xs with
  | nil => exact .refl []
  | cons x xs ih =>
    cases h : x.text? with
    | some s => simpa [h] using ih
    | none => simpa [h] using List.perm_middle.trans (ih.cons x)

/-- The sets that hand out their texts first, and all else as it is listed. -/
def Listing.textsFirst : Listing :=
  ⟨Value.textsFirst, textsFirst_perm⟩

end ScanJobs.Value
