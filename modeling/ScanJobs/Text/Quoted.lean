import ScanJobs.Text.Printable
import ScanJobs.Text.Utf8

/-! # Quoted text

A quoted text stands between single quotes, or between double quotes if it holds a single and no
double one. The quote in use and the backslash are escaped, line feed, carriage return and tab have
short escapes, and every other character that is not printable is written by its number in
hexadecimal: two digits below U+0100, four below U+10000, else eight. Quoted bytes follow the same
rules, with the printable characters of ASCII alone standing for themselves.
-/

namespace ScanJobs.Text

/-- The hexadecimal digits of `n`, `width` of them, the lowest last. -/
def hexDigits : Nat → Nat → List Char
  | 0, _ => []
  | width + 1, n => hexDigits width (n / 16) ++ [Nat.digitChar (n % 16)]

/-- The quote that stands around these characters. -/
def quoteFor (cs : List Char) : Char :=
  if cs.contains '\'' && !cs.contains '"' then '"' else '\''

/-- The short escapes, which do not depend on what is printable. -/
def shortEscape? (quote c : Char) : Option (List Char) :=
  if c = '\\' || c = quote then some ['\\', c]
  else if c = '\n' then some ['\\', 'n']
  else if c = '\r' then some ['\\', 'r']
  else if c = '\t' then some ['\\', 't']
  else none

/-- A character by its number, in the narrowest of the three widths. -/
def numberEscape (c : Char) : List Char :=
  if c.toNat < 0x100 then '\\' :: 'x' :: hexDigits 2 c.toNat
  else if c.toNat < 0x10000 then '\\' :: 'u' :: hexDigits 4 c.toNat
  else '\\' :: 'U' :: hexDigits 8 c.toNat

/-- How one character is written between quotes, for a class of characters that may stand alone. -/
def escape (plain : Char → Bool) (quote c : Char) : List Char :=
  (shortEscape? quote c).getD (if plain c then [c] else numberEscape c)

/-- Characters between quotes. -/
def quoteList (plain : Char → Bool) (cs : List Char) : List Char :=
  let q := quoteFor cs
  q :: cs.flatMap (escape plain q) ++ [q]

/-- A text between quotes. -/
def quoted (s : String) : String :=
  String.ofList (quoteList isPrintable s.toList)

/-- A printable character of ASCII. -/
def isPlainAscii (c : Char) : Bool :=
  0x20 ≤ c.toNat && c.toNat < 0x7F

/-- Bytes between quotes, marked with a `b`. -/
def quotedBytes (bs : List UInt8) : String :=
  String.ofList ('b' :: quoteList isPlainAscii (latin1 bs))

end ScanJobs.Text
