import ScanJobs.Number.Double

/-! # The nearest double

`Double.ofRatio` rounds a quotient of natural numbers to the nearest double, a tie to the even
mantissa; what lies above every finite double becomes infinite. All arithmetic is exact.
-/

namespace ScanJobs

/-- The quotient rounded to the nearest integer, a half to the even neighbour. -/
def roundEven (num den : Nat) : Nat :=
  let q := num / den
  let r := 2 * (num % den)
  if r < den || (r == den && q % 2 == 0) then q else q + 1

namespace Double

open Number (twoTo tenTo)

/-- `num / (den · 2 ^ e)`, rounded. -/
def scaledRound (num den : Nat) (e : Int) : Nat :=
  if 0 ≤ e then roundEven num (den * twoTo e.toNat) else roundEven (num * twoTo (-e).toNat) den

/-- The quotient is at least `2 ^ k`. -/
def atLeastPower (num den : Nat) (k : Int) : Bool :=
  if 0 ≤ k then den * twoTo k.toNat ≤ num else den ≤ num * twoTo (-k).toNat

/-- The exponent of two just below a positive quotient. -/
def floorLog2 (num den : Nat) : Int :=
  let k : Int := (num.log2 : Int) - den.log2
  if atLeastPower num den k then k else k - 1

/-- The exponent of two that the mantissa of the nearest double counts: 53 bits, but not below the
scale of the smallest doubles. -/
def targetScale (num den : Nat) : Int :=
  max (floorLog2 num den - 52) (-1074)

/-- **The nearest double** to the quotient of two positive numbers. -/
def ofRatio (negative : Bool) (num den : Nat) : Double :=
  if num = 0 then zero negative
  else
    let e := targetScale num den
    let m := scaledRound num den e
    if m < twoTo 52 then ofParts negative 0 m
    else
      let biased := (e + 1075).toNat + (if m = twoTo 53 then 1 else 0)
      if 2047 ≤ biased then infinity negative
      else ofParts negative biased (if m = twoTo 53 then 0 else m - twoTo 52)

/-- The nearest double to an integer. -/
def ofInt (n : Int) : Double :=
  ofRatio (decide (n < 0)) n.natAbs 1

/-- The nearest double to `digits · 10 ^ exponent`. A number with too many places to the left is
infinite and one with too many to the right is zero, without computing the power. -/
def ofDecimal (negative : Bool) (digits : Nat) (exponent : Int) : Double :=
  let places : Int := (Nat.toDigits 10 digits).length
  if digits = 0 then zero negative
  else if 400 < places + exponent then infinity negative
  else if places + exponent < -400 then zero negative
  else if 0 ≤ exponent then ofRatio negative (digits * tenTo exponent.toNat) 1
  else ofRatio negative digits (tenTo (-exponent).toNat)

end Double

end ScanJobs
