import ScanJobs.Text.Blank
import ScanJobs.Text.Split
import ScanJobs.Text.Digit
import ScanJobs.Number.Nearest

/-! # Numerals

The forms in which numbers may be written.

* `integer`: white space around, a sign, digits of ASCII with single underscores between them, and a
  point followed by zeros only. Zeros before the number do not count, nor do underscores among them.
* `decimal?`: a sign, digits with a point and an exponent, or a name of infinity or of no number.
  White space may stand around it, or single underscores between any two characters, but not both.
* `count`: white space around, a sign, decimal digits of any script with single underscores between
  them, and no point.

A count of more than `maxDigits` digits is refused as too long, and so is an integer that is written
with nothing but a minus and so many digits; in any other form such an integer is no number.
-/

namespace ScanJobs.Numeral

open ScanJobs.Text

/-- Why what is written is no number. -/
inductive Fault where
  | malformed
  /-- There are too many digits: so many. -/
  | tooLong (digits : Nat)
deriving DecidableEq, Repr

/-- The most digits that a number may be written with. -/
def maxDigits : Nat := 4300

/-- The digits that an integer is written with. -/
def digitsOf (n : Int) : List Char :=
  Nat.toDigits 10 n.natAbs

/-- **The integer has no more digits than are read or written.** -/
def IsShort (n : Int) : Prop :=
  (digitsOf n).length ≤ maxDigits

instance (n : Int) : Decidable (IsShort n) :=
  inferInstanceAs (Decidable (_ ≤ _))

/-- The characters less the single underscores between them. -/
def ungroup? (cs : List Char) : Option (List Char) :=
  let groups := splitList '_' cs
  if groups.all fun g => !g.isEmpty then some groups.flatten else none

/-- The number that digits of ASCII spell. -/
def ofAsciiDigits (ds : List Char) : Nat :=
  ofDigits (ds.map asciiDigitValue)

/-- The number with its sign. -/
def signed (negative : Bool) (n : Nat) : Int :=
  if negative then -n else n

/-! ## Integers -/

/-- The digits at the start, up to the first if that is a zero. -/
def leadingDigits : List Char → List Char × List Char
  | '0' :: cs => (['0'], cs)
  | cs => cs.span isAsciiDigit

/-- Splits a minus off; `true` if there is one. -/
def splitMinus : List Char → Bool × List Char
  | '-' :: cs => (true, cs)
  | cs => (false, cs)

/-- Reads a minus, if there is one, and digits without a needless zero before them. What follows the
digits is looked at last. -/
def plainInteger (cs : List Char) : Except Fault Int :=
  let (negative, body) := splitMinus cs
  let (ds, rest) := leadingDigits body
  if maxDigits < ds.length then .error (.tooLong ds.length)
  else if ds.isEmpty || !rest.isEmpty then .error .malformed
  else .ok (signed negative (ofAsciiDigits ds))

/-- What follows the zeros at the start, the last of which is `zero`. That one is left if there is
nothing else, or a point follows. -/
def fromSignificant? (zero : Char) : List Char → Option (List Char)
  | [] => some [zero]
  | c :: cs =>
    if c = '0' || c = '_' then fromSignificant? c cs
    else if c = '.' then some (zero :: c :: cs)
    else if c = '-' || isAsciiDigit c then some (c :: cs)
    else none

/-- The characters without needless zeros at the start. -/
def withoutLeadingZeros? : List Char → Option (List Char)
  | '0' :: cs => fromSignificant? '0' cs
  | c :: cs => if c = '-' || isAsciiDigit c then some (c :: cs) else none
  | [] => none

/-- A point followed by at least one zero and nothing else. -/
def isZeroFraction : List Char → Bool
  | '.' :: zeros => !zeros.isEmpty && zeros.all (· == '0')
  | _ => false

/-- The characters before a fraction of zeros. -/
def withoutZeroFraction (cs : List Char) : List Char :=
  let (whole, rest) := cs.span (· != '.')
  if isZeroFraction rest then whole else cs

/-- What is written, in plain digits. -/
def plainBody? (cs : List Char) : Option (List Char) :=
  (withoutLeadingZeros? cs).bind fun cs => ungroup? (withoutZeroFraction cs)

/-- What is written after a sign, in plain digits. -/
def plainForm? : List Char → Option (List Char)
  | '+' :: '-' :: _ => none
  | '+' :: cs => plainBody? cs
  | '-' :: cs => (plainBody? cs).map ('-' :: ·)
  | cs => plainBody? cs

/-- The integer that is left when all that does not count is left out. -/
def integerWithin? (cs : List Char) : Option Int :=
  (plainForm? (trimList isPadding cs)).bind fun ds => (plainInteger ds).toOption

/-- **Reads an integer**, in its plain form or in any other. -/
def integer (s : String) : Except Fault Int :=
  match plainInteger s.toList with
  | .error .malformed => (integerWithin? s.toList).elim (.error .malformed) .ok
  | r => r

/-! ## Floating-point numbers -/

/-- Splits a sign off; `true` if it is a minus. -/
def splitSign : List Char → Bool × List Char
  | '+' :: cs => (false, cs)
  | cs => splitMinus cs

/-- The letters of ASCII in lower case. -/
def lowerAscii (cs : List Char) : List Char :=
  cs.map fun c => if 'A' ≤ c && c ≤ 'Z' then Char.ofNat (c.toNat + 32) else c

/-- Reads the exponent after its mark; no mark stands for zero. -/
def exponent? : List Char → Option Int
  | [] => some 0
  | _ :: cs =>
    let (negative, ds) := splitSign cs
    if !ds.isEmpty && ds.all isAsciiDigit then some (signed negative (ofAsciiDigits ds)) else none

/-- Reads digits with a point and an exponent as a whole number and a power of ten. -/
def places? (cs : List Char) : Option (Nat × Int) := do
  let (mantissa, tail) := cs.span (· != 'e')
  let (whole, rest) := mantissa.span (· != '.')
  let digits := whole ++ rest.drop 1
  guard (!digits.isEmpty && digits.all isAsciiDigit)
  return (ofAsciiDigits digits, (← exponent? tail) - (rest.drop 1).length)

/-- Reads a floating-point number that nothing stands around: the nearest double to it. -/
def plainDecimal? (cs : List Char) : Option Double :=
  let (negative, body) := splitSign (lowerAscii cs)
  if body = "inf".toList || body = "infinity".toList then some (Double.infinity negative)
  else if body = "nan".toList then some Double.nan
  else (places? body).map fun (n, e) => Double.ofDecimal negative n e

/-- **Reads a floating-point number.** -/
def decimal? (s : String) : Option Double :=
  (plainDecimal? (trimList isPadding s.toList)).orElse fun _ => (ungroup? s.toList).bind plainDecimal?

/-! ## Counts -/

/-- **Reads a count**; `padding` and `digit?` say which characters may stand around it and what its
digits are. What follows the digits is looked at last. -/
def count (padding : Char → Bool) (digit? : Char → Option Nat) (cs : List Char) : Except Fault Int :=
  let (negative, body) := splitSign (cs.dropWhile padding)
  let (digits, rest) := body.span fun c => c == '_' || (digit? c).isSome
  match ungroup? digits with
  | none => .error .malformed
  | some ds =>
    if maxDigits < ds.length then .error (.tooLong ds.length)
    else if rest.all padding then .ok (signed negative (ofDigits (ds.filterMap digit?)))
    else .error .malformed

/-- Reads a count from a text. -/
def countOfText (s : String) : Except Fault Int :=
  count isPadding digitValue? s.toList

/-- Reads a count from bytes, in ASCII. -/
def countOfBytes (cs : List Char) : Except Fault Int :=
  count isAsciiPadding (fun c => if isAsciiDigit c then some (asciiDigitValue c) else none) cs

end ScanJobs.Numeral
