import ScanJobs.Number.Double

/-! # The shortest text of a double

A double is written with the fewest decimal digits that read back as the same double, and of those
the nearest to it. The numbers that read back as `m · 2 ^ e` form an interval around it, half a step
wide on either side, ends included if `m` is even; a decimal grid meets the interval only if one of
the two grid points next to the double does, so these two are tried on one grid after the other.
The text is positional from `0.0001` up to below `10 ^ 16`, always with a point, and has an exponent
of at least two digits otherwise.
-/

namespace ScanJobs.Double

open Number (twoTo tenTo)

/-- A positive rational number `num / den`. -/
structure Ratio where
  num : Nat
  den : Nat

/-- `n · 2 ^ e`. -/
def Ratio.ofBinary (n : Nat) (e : Int) : Ratio :=
  if 0 ≤ e then ⟨n * twoTo e.toNat, 1⟩ else ⟨n, twoTo (-e).toNat⟩

/-- `n · 10 ^ e`. -/
def Ratio.ofDecimal (n : Nat) (e : Int) : Ratio :=
  if 0 ≤ e then ⟨n * tenTo e.toNat, 1⟩ else ⟨n, tenTo (-e).toNat⟩

/-- `a ≤ b`. -/
def Ratio.le (a b : Ratio) : Bool :=
  a.num * b.den ≤ b.num * a.den

/-- `a < b`. -/
def Ratio.lt (a b : Ratio) : Bool :=
  a.num * b.den < b.num * a.den

/-- A decimal `digits · 10 ^ exponent`. -/
structure Decimal where
  digits : Nat
  exponent : Int
deriving DecidableEq, Repr

/-- The value of a decimal. -/
def Decimal.ratio (d : Decimal) : Ratio :=
  .ofDecimal d.digits d.exponent

/-- Four times the mantissas of the ends of the interval that reads back as `m · 2 ^ e`. The lower
half is a quarter wide just above a power of two, where the doubles below lie closer. -/
def interval (m : Nat) (e : Int) : Nat × Nat :=
  (4 * m - (if m = twoTo 52 && -1074 < e then 1 else 2), 4 * m + 2)

/-- The decimal reads back as `m · 2 ^ e`. -/
def readsBack (m : Nat) (e : Int) (d : Decimal) : Bool :=
  let ends := interval m e
  let lo := Ratio.ofBinary ends.1 (e - 2)
  let hi := Ratio.ofBinary ends.2 (e - 2)
  if m % 2 = 0 then lo.le d.ratio && d.ratio.le hi else lo.lt d.ratio && d.ratio.lt hi

/-- The power of ten just below a positive number. The estimate from the power of two is at most one
too low or too high. -/
def floorLog10 (v : Ratio) (log2 : Int) : Int :=
  let k := Int.fdiv (log2 * 30103) 100000
  if v.lt (.ofDecimal 1 k) then k - 1
  else if (Ratio.ofDecimal 1 (k + 1)).le v then k + 1
  else k

/-- The nearer of the two neighbours of `v` on the grid of step `10 ^ k`, if it passes the test. A tie
goes to the even one. -/
def onGrid (v : Ratio) (k : Int) (ok : Decimal → Bool) : Option Decimal :=
  let step := Ratio.ofDecimal 1 k
  let num := v.num * step.den
  let den := v.den * step.num
  let a := num / den
  let twice := 2 * (num % den)
  let below : Decimal := ⟨a, k⟩
  let above : Decimal := ⟨a + 1, k⟩
  let belowNearer := twice < den || (twice == den && a % 2 == 0)
  match ok below, ok above with
  | true, true => some (if belowNearer then below else above)
  | true, false => some below
  | false, true => some above
  | false, false => none

/-- The shortest decimal that reads back as `m · 2 ^ e`, which needs seventeen digits at most. -/
def shortest (m : Nat) (e : Int) : Decimal :=
  let v := Ratio.ofBinary m e
  let top := floorLog10 v (m.log2 + e)
  let tries := (List.range 17).map fun (n : Nat) => top - n
  (tries.findSome? fun k => onGrid v k (readsBack m e)).getD ⟨m, 0⟩

/-- The digits less the zeros at their end, and how many these were. -/
def dropZeros (ds : List Char) : List Char × Nat :=
  let kept := (ds.reverse.dropWhile (· == '0')).reverse
  (kept, ds.length - kept.length)

/-- Digits with the point after the first `point` of them. -/
def positional (ds : List Char) (point : Int) : List Char :=
  if point ≤ 0 then '0' :: '.' :: List.replicate (-point).toNat '0' ++ ds
  else if ds.length ≤ point.toNat then
    ds ++ List.replicate (point.toNat - ds.length) '0' ++ ['.', '0']
  else ds.take point.toNat ++ '.' :: ds.drop point.toNat

/-- Digits with the point after the first, and the exponent that this leaves. -/
def scientific (ds : List Char) (exponent : Int) : List Char :=
  let rest := ds.drop 1
  let e := Nat.toDigits 10 exponent.natAbs
  ds.take 1 ++ (if rest.isEmpty then [] else '.' :: rest) ++
    'e' :: (if exponent < 0 then '-' else '+') :: (if e.length < 2 then '0' :: e else e)

/-- The text of a decimal. -/
def Decimal.chars (d : Decimal) : List Char :=
  let all := Nat.toDigits 10 d.digits
  let point := all.length + d.exponent
  let ds := (dropZeros all).1
  if -4 < point && point ≤ 16 then positional ds point else scientific ds (point - 1)

/-- **The shortest text** of a double. -/
def text (x : Double) : String :=
  match x.number with
  | .nan => "nan"
  | .infinite negative => if negative then "-inf" else "inf"
  | .dyadic _ e =>
    let chars := if x.mantissa = 0 then ['0', '.', '0'] else (shortest x.mantissa e).chars
    String.ofList (if x.isNegative then '-' :: chars else chars)

end ScanJobs.Double
