import ScanJobs.Number.Double
import Mathlib.Algebra.Order.Field.Rat
import Mathlib.Algebra.Order.Field.Power
import Mathlib.Tactic.Positivity

/-! # The order of numbers

Dyadic numbers compare as the rational numbers that they are (`Number.le_dyadic_iff`). -/

namespace ScanJobs.Number

/-- The rational number `m · 2 ^ e`. -/
def rational (m e : Int) : ℚ := m * 2 ^ e

theorem cast_twoTo (n : Nat) : ((twoTo n : Nat) : ℚ) = 2 ^ n := by
  rw [twoTo, Nat.pow_eq, Nat.cast_pow, Nat.cast_ofNat]

/-- What is counted at a smaller exponent is the same number. -/
theorem cast_mul_twoTo {m e e' : Int} (h : e' ≤ e) :
    ((m * twoTo (e - e').toNat : Int) : ℚ) * 2 ^ e' = rational m e := by
  have hexp : ((e - e').toNat : Int) = e - e' := Int.toNat_of_nonneg (by omega)
  rw [rational, Int.cast_mul, Int.cast_natCast, cast_twoTo, ← zpow_natCast, hexp, mul_assoc,
    ← zpow_add₀ (by norm_num)]
  congr 2
  omega

/-- Aligned mantissas compare as the numbers do. -/
theorem aligned_lt_iff (m₁ e₁ m₂ e₂ : Int) :
    (aligned m₁ e₁ m₂ e₂).1 < (aligned m₁ e₁ m₂ e₂).2 ↔ rational m₁ e₁ < rational m₂ e₂ := by
  rw [← cast_mul_twoTo (m := m₁) (min_le_left e₁ e₂),
    ← cast_mul_twoTo (m := m₂) (min_le_right e₁ e₂)]
  rw [mul_lt_mul_iff_left₀ (by positivity), Int.cast_lt]
  rfl

theorem aligned_eq_iff (m₁ e₁ m₂ e₂ : Int) :
    (aligned m₁ e₁ m₂ e₂).1 = (aligned m₁ e₁ m₂ e₂).2 ↔ rational m₁ e₁ = rational m₂ e₂ := by
  rw [← cast_mul_twoTo (m := m₁) (min_le_left e₁ e₂),
    ← cast_mul_twoTo (m := m₂) (min_le_right e₁ e₂)]
  rw [mul_left_inj' (by positivity), Int.cast_inj]
  rfl

theorem eq_dyadic_iff {m₁ e₁ m₂ e₂ : Int} :
    Number.eq (.dyadic m₁ e₁) (.dyadic m₂ e₂) = true ↔ rational m₁ e₁ = rational m₂ e₂ := by
  rw [← aligned_eq_iff]
  exact beq_iff_eq

theorem lt_dyadic_iff {m₁ e₁ m₂ e₂ : Int} :
    Number.lt (.dyadic m₁ e₁) (.dyadic m₂ e₂) = true ↔ rational m₁ e₁ < rational m₂ e₂ := by
  rw [← aligned_lt_iff]
  exact decide_eq_true_iff

/-- **Dyadic numbers compare as rational numbers.** -/
theorem le_dyadic_iff {m₁ e₁ m₂ e₂ : Int} :
    Number.le (.dyadic m₁ e₁) (.dyadic m₂ e₂) = true ↔ rational m₁ e₁ ≤ rational m₂ e₂ := by
  rw [Number.le, Bool.or_eq_true, eq_dyadic_iff, le_iff_lt_or_eq, ← aligned_lt_iff]
  exact or_congr decide_eq_true_iff Iff.rfl

/-- What is above a number is not at it or below. -/
theorem le_eq_false_of_lt {a b : Number} (h : a.lt b = true) : b.le a = false := by
  cases a <;> cases b
  case dyadic.dyadic =>
    rw [Bool.eq_false_iff, ne_eq, le_dyadic_iff, not_le]
    exact lt_dyadic_iff.mp h
  case infinite.infinite s t =>
    revert h
    cases s <;> cases t <;> decide
  all_goals simp_all [Number.le, Number.lt, Number.eq]

/-- Equality does not tell the two sides apart. -/
theorem eq_comm (a b : Number) : Number.eq a b = Number.eq b a := by
  cases a <;> cases b
  case dyadic.dyadic =>
    rw [Bool.eq_iff_iff, eq_dyadic_iff, eq_dyadic_iff]
    exact Eq.comm
  case infinite.infinite s t => exact Bool.beq_comm
  all_goals rfl

theorem eq_trans {a b c : Number} (h : a.eq b = true) (h' : b.eq c = true) : a.eq c = true := by
  cases a <;> cases b <;> cases c
  case dyadic.dyadic.dyadic => exact eq_dyadic_iff.mpr ((eq_dyadic_iff.mp h).trans (eq_dyadic_iff.mp h'))
  case infinite.infinite.infinite s t u =>
    revert h h'
    cases s <;> cases t <;> cases u <;> decide
  all_goals simp_all [Number.eq]

end ScanJobs.Number
