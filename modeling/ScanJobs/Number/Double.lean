/-! # Floating-point numbers

A double is held as its 64 bits, so that equality is decidable and two numbers can be told apart
that compare as equal. A finite one is `± m · 2 ^ e` for its `mantissa` m and its `scale` e. `Number`
is the common scale on which doubles and integers are compared: an exact dyadic number, an infinity,
or no number at all, which equals and precedes nothing.
-/

namespace ScanJobs

/-- A floating-point number of 64 bits. -/
structure Double where
  bits : UInt64
deriving DecidableEq, Repr, Inhabited

/-- A number on the common scale. -/
inductive Number where
  /-- `m · 2 ^ e`. -/
  | dyadic (m : Int) (e : Int)
  | infinite (negative : Bool)
  | nan
deriving DecidableEq, Repr

namespace Number

/-- `2 ^ n`. -/
def twoTo (n : Nat) : Nat :=
  Nat.pow 2 n

/-- `10 ^ n`. -/
def tenTo (n : Nat) : Nat :=
  Nat.pow 10 n

/-- The number `n`. -/
def ofInt (n : Int) : Number :=
  .dyadic n 0

/-- The two mantissas of dyadic numbers, brought to the smaller exponent. -/
def aligned (m₁ e₁ m₂ e₂ : Int) : Int × Int :=
  let e := min e₁ e₂
  (m₁ * twoTo (e₁ - e).toNat, m₂ * twoTo (e₂ - e).toNat)

/-- The numbers are equal. -/
def eq : Number → Number → Bool
  | .dyadic m₁ e₁, .dyadic m₂ e₂ => let a := aligned m₁ e₁ m₂ e₂; a.1 == a.2
  | .infinite s, .infinite t => s == t
  | _, _ => false

/-- The first number is below the second. -/
def lt : Number → Number → Bool
  | .dyadic m₁ e₁, .dyadic m₂ e₂ => let a := aligned m₁ e₁ m₂ e₂; decide (a.1 < a.2)
  | .dyadic _ _, .infinite neg => !neg
  | .infinite neg, .dyadic _ _ => neg
  | .infinite s, .infinite t => s && !t
  | _, _ => false

/-- The first number is not above the second. -/
def le (a b : Number) : Bool :=
  lt a b || eq a b

/-- The number towards zero from a dyadic one. -/
def truncate (m e : Int) : Int :=
  if 0 ≤ e then m * twoTo e.toNat else Int.tdiv m (twoTo (-e).toNat)

/-- The dyadic number is an integer. -/
def isIntegral (m e : Int) : Bool :=
  0 ≤ e || m % twoTo (-e).toNat == 0

end Number

namespace Double

open Number (twoTo tenTo)

/-- The bits of the fraction, 52 of them. -/
def fraction (x : Double) : Nat :=
  x.bits.toNat % twoTo 52

/-- The biased exponent, 11 bits. -/
def exponent (x : Double) : Nat :=
  x.bits.toNat / twoTo 52 % twoTo 11

/-- The sign bit is set. -/
def isNegative (x : Double) : Bool :=
  twoTo 63 ≤ x.bits.toNat

/-- The mantissa of a finite double. -/
def mantissa (x : Double) : Nat :=
  if x.exponent = 0 then x.fraction else x.fraction + twoTo 52

/-- The power of two that the mantissa counts. -/
def scale (x : Double) : Int :=
  (if x.exponent = 0 then 1 else x.exponent : Nat) - 1075

/-- The value of a double on the common scale. -/
def number (x : Double) : Number :=
  if x.exponent = 2047 then (if x.fraction = 0 then .infinite x.isNegative else .nan)
  else .dyadic (if x.isNegative then -x.mantissa else x.mantissa) x.scale

/-- A double from sign, biased exponent and fraction; a carry out of the fraction raises the
exponent. -/
def ofParts (negative : Bool) (exponent fraction : Nat) : Double :=
  ⟨UInt64.ofNat ((if negative then twoTo 63 else 0) + exponent * twoTo 52 + fraction)⟩

def nan : Double := ofParts false 2047 (twoTo 51)

def infinity (negative : Bool) : Double := ofParts negative 2047 0

def zero (negative : Bool) : Double := ofParts negative 0 0

/-- The double is above zero. -/
def isPositive (x : Double) : Bool :=
  Number.lt (.ofInt 0) x.number

end Double

end ScanJobs
