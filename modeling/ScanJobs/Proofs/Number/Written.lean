import ScanJobs.Number.Numeral
import ScanJobs.Proofs.OptionType.Pieces
import Mathlib.Data.List.TakeDrop
import Mathlib.Data.List.TakeWhile

/-! # Integers as they are written

An integer is read back from its decimal text, unless that has more digits than are read
(`integer_toString`). -/

namespace ScanJobs.Numeral

open Text

/-! ### The digits -/

theorem isAsciiDigit_of_mem {n : Int} {c : Char} (h : c ∈ digitsOf n) : isAsciiDigit c = true :=
  Nat.isDigit_of_mem_toDigits (by decide) (by decide) h

theorem digitsOf_ne_nil (n : Int) : digitsOf n ≠ [] :=
  Nat.toDigits_ne_nil

theorem ofAsciiDigits_digitsOf (n : Int) : ofAsciiDigits (digitsOf n) = n.natAbs := by
  have h : ofAsciiDigits (digitsOf n) = Nat.ofDigitChars 10 (digitsOf n) 0 := by
    rw [ofAsciiDigits, ofDigits, List.foldl_map]
    rfl
  rw [h]
  exact Nat.ofDigitChars_ten_toDigits

theorem signed_natAbs (n : Int) : signed (decide (n < 0)) n.natAbs = n := by
  unfold signed
  split
  · next h =>
    rw [decide_eq_true_eq] at h
    omega
  · next h =>
    rw [decide_eq_true_eq] at h
    omega

/-- Only zero is written with a zero in front. -/
theorem head?_toDigits {n : Nat} (hn : 0 < n) : (Nat.toDigits 10 n).head? ≠ some '0' := by
  have hdigit : ∀ d < 10, 0 < d → some (Nat.digitChar d) ≠ some '0' := by decide
  induction n using Nat.strongRecOn with
  | ind n ih =>
    by_cases h : n < 10
    · rw [Nat.toDigits_of_lt_base h]
      exact hdigit n h hn
    · obtain ⟨c, cs, hcs⟩ := List.exists_cons_of_ne_nil (Nat.toDigits_ne_nil (n := n / 10) (b := 10))
      have hrest := ih (n / 10) (by omega) (by omega)
      rw [Nat.toDigits_of_base_le (by decide) (by omega), hcs]
      rw [hcs] at hrest
      exact hrest

/-- An integer has as many digits as it takes. -/
theorem lt_tenTo_length (n : Nat) : n < Number.tenTo (Nat.toDigits 10 n).length := by
  induction n using Nat.strongRecOn with
  | ind n ih =>
    by_cases h : n < 10
    · rw [Nat.toDigits_of_lt_base h]
      exact h
    · have hrest := ih (n / 10) (by omega)
      rw [Nat.toDigits_of_base_le (by decide) (by omega), List.length_append]
      change n < Number.tenTo (Nat.toDigits 10 (n / 10)).length * 10
      omega

/-- A power of ten has more digits than its exponent says. -/
theorem lt_length_digitsOf_tenTo (k : Nat) : k < (digitsOf (Number.tenTo k)).length := by
  by_contra h
  have hle : Number.tenTo (digitsOf (Number.tenTo k)).length ≤ Number.tenTo k :=
    Nat.pow_le_pow_right (by decide) (Nat.not_lt.mp h)
  exact absurd (lt_tenTo_length (Number.tenTo k)) (Nat.not_lt.mpr hle)

theorem not_isShort_tenTo : ¬ IsShort (Number.tenTo maxDigits) :=
  Nat.not_le.mpr (lt_length_digitsOf_tenTo maxDigits)

/-! ### Reading -/

theorem toList_toString (n : Int) :
    (toString n).toList = if n < 0 then '-' :: digitsOf n else digitsOf n := by
  rw [Int.toString_eq_repr, Int.repr_eq_if, digitsOf]
  split
  · next h =>
    have hn : n.toNat = n.natAbs := by omega
    rw [if_neg (by omega), Nat.repr_eq_ofList_toDigits, String.toList_ofList, hn]
  · next h =>
    have hn : (-n).toNat = n.natAbs := by omega
    rw [if_pos (by omega), Nat.repr_eq_ofList_toDigits, String.toList_append, String.toList_ofList,
      hn]
    simp

theorem splitMinus_digitsOf (n : Int) : splitMinus (digitsOf n) = (false, digitsOf n) := by
  cases h : digitsOf n with
  | nil => rfl
  | cons c cs =>
    have hc : isAsciiDigit c = true := isAsciiDigit_of_mem (h ▸ List.mem_cons_self ..)
    have hne : c ≠ '-' := by
      rintro rfl
      cases hc
    unfold splitMinus
    split
    · next heq => exact absurd (List.cons.inj heq).1 hne
    · rfl

theorem leadingDigits_digitsOf (n : Int) : leadingDigits (digitsOf n) = (digitsOf n, []) := by
  by_cases hz : n.natAbs = 0
  · have h : digitsOf n = ['0'] := by rw [digitsOf, hz]; rfl
    rw [h]
    rfl
  · have hhead : (digitsOf n).head? ≠ some '0' := head?_toDigits (by omega)
    have hspan : leadingDigits (digitsOf n) = (digitsOf n).span isAsciiDigit := by
      unfold leadingDigits
      split
      · next cs h => exact absurd (by rw [h]; rfl) hhead
      · rfl
    have hall : ∀ c ∈ digitsOf n, isAsciiDigit c = true := fun c => isAsciiDigit_of_mem
    rw [hspan, List.span_eq_takeWhile_dropWhile, List.takeWhile_eq_self_iff.mpr hall,
      List.dropWhile_eq_nil_iff.mpr hall]

/-- What is written as an integer is plain. -/
theorem plainInteger_toString (n : Int) :
    plainInteger (toString n).toList =
      if IsShort n then .ok n else .error (.tooLong (digitsOf n).length) := by
  have hsplit : splitMinus (toString n).toList = (decide (n < 0), digitsOf n) := by
    rw [toList_toString]
    split
    · next h => rw [decide_eq_true h]; rfl
    · next h => rw [decide_eq_false h, splitMinus_digitsOf]
  have hempty : (digitsOf n).isEmpty = false := by simpa using digitsOf_ne_nil n
  unfold plainInteger
  simp only [hsplit, leadingDigits_digitsOf, hempty, ofAsciiDigits_digitsOf, signed_natAbs]
  by_cases h : IsShort n
  · have hle : ¬ maxDigits < (digitsOf n).length := Nat.not_lt.mpr h
    rw [if_neg hle, if_pos h]
    rfl
  · have hlt : maxDigits < (digitsOf n).length := Nat.not_le.mp h
    rw [if_pos hlt, if_neg h]

/-- **An integer is read back** if it has no more digits than are read. -/
theorem integer_toString (n : Int) :
    integer (toString n) =
      if IsShort n then .ok n else .error (.tooLong (digitsOf n).length) := by
  unfold integer
  rw [plainInteger_toString]
  split
  · next h => split at h <;> cases h
  · rfl

/-! ### The text -/

theorem isBlankChar_of_isAsciiDigit {c : Char} (h : isAsciiDigit c = true) :
    isBlankChar c = false := by
  have hc : 48 ≤ c.toNat ∧ c.toNat ≤ 57 := by
    rw [isAsciiDigit, Bool.and_eq_true, decide_eq_true_eq, decide_eq_true_eq] at h
    exact h
  unfold isBlankChar
  grind

/-- The text of an integer has nothing but digits and a minus in front. -/
theorem mem_toString {n : Int} {c : Char} (h : c ∈ (toString n).toList) :
    c = '-' ∨ isAsciiDigit c = true := by
  rw [toList_toString] at h
  split at h
  · exact (List.mem_cons.mp h).imp_right isAsciiDigit_of_mem
  · exact .inr (isAsciiDigit_of_mem h)

/-- **The text of an integer is a piece.** -/
theorem piece_toString (n : Int) : OptionType.Piece (toString n) := by
  have hne : (toString n).toList ≠ [] := by
    rw [toList_toString]
    split
    · exact List.cons_ne_nil _ _
    · exact digitsOf_ne_nil n
  have hblank : ∀ c ∈ (toString n).toList, isBlankChar c = false := by
    intro c hc
    rcases mem_toString hc with rfl | hdigit
    · rfl
    · exact isBlankChar_of_isAsciiDigit hdigit
  refine ⟨solid_iff.mpr ⟨?_, ?_⟩, fun hcomma => ?_⟩
  · exact ⟨_, List.head?_eq_some_head hne, hblank _ (List.head_mem hne)⟩
  · exact ⟨_, List.getLast?_eq_some_getLast hne, hblank _ (List.getLast_mem hne)⟩
  · rcases mem_toString hcomma with h | h
    · cases h
    · cases h

end ScanJobs.Numeral
