import ScanJobs.Value.Basic
import ScanJobs.Number.Numeral
import ScanJobs.Number.Nearest

/-! # Values written in JSON

`Json.read?` reads a text of JSON: texts, numbers, the three words, arrays as lists and objects as
maps, in which the later of two members of one name counts. The words for infinity and for no number
are read too; an integer of too many digits is not. Nesting is read to the depth that the length of
the text allows, so that none is lost.
-/

namespace ScanJobs.Json

/-- The characters that may stand between tokens. -/
def isSpace (c : Char) : Bool :=
  c == ' ' || c == '\t' || c == '\n' || c == '\r'

/-- The text from its next token on. -/
def skip (cs : List Char) : List Char :=
  cs.dropWhile isSpace

/-! ## Texts -/

/-- The value of a hexadecimal digit. -/
def hexDigit? (c : Char) : Option Nat :=
  if '0' ≤ c && c ≤ '9' then some (c.toNat - '0'.toNat)
  else if 'a' ≤ c && c ≤ 'f' then some (c.toNat - 'a'.toNat + 10)
  else if 'A' ≤ c && c ≤ 'F' then some (c.toNat - 'A'.toNat + 10)
  else none

/-- The unit that four hexadecimal digits spell. -/
def unit? (cs : List Char) : Option (Nat × List Char) := do
  guard (4 ≤ cs.length)
  let ds ← (cs.take 4).mapM hexDigit?
  return (ds.foldl (fun n d => 16 * n + d) 0, cs.drop 4)

/-- The unit is the first half of a pair. -/
def isHigh (u : Nat) : Bool :=
  0xD800 ≤ u && u < 0xDC00

/-- The unit is the second half of a pair. -/
def isLow (u : Nat) : Bool :=
  0xDC00 ≤ u && u < 0xE000

/-- The second half of a pair, if it follows. -/
def lowAfter? (cs : List Char) : Option (Nat × List Char) :=
  match cs with
  | '\\' :: 'u' :: cs => (unit? cs).filter fun p => isLow p.1
  | _ => none

/-- The character of one or two units. Half a pair alone stands for the replacement character. -/
def unitCharacter? (cs : List Char) : Option (Char × List Char) := do
  let (u, rest) ← unit? cs
  if isHigh u then
    match lowAfter? rest with
    | some (v, rest) => return (Char.ofNat (0x10000 + (u - 0xD800) * 0x400 + (v - 0xDC00)), rest)
    | none => return ('\uFFFD', rest)
  else if isLow u then return ('\uFFFD', rest)
  else return (Char.ofNat u, rest)

/-- The characters that stand for one after a backslash. -/
def shortEscape? (c : Char) : Option Char :=
  match c with
  | '"' => some '"'
  | '\\' => some '\\'
  | '/' => some '/'
  | 'b' => some '\x08'
  | 'f' => some '\x0c'
  | 'n' => some '\n'
  | 'r' => some '\r'
  | 't' => some '\t'
  | _ => none

/-- The next character of a text between quotes. -/
def character? (cs : List Char) : Option (Char × List Char) :=
  match cs with
  | '\\' :: 'u' :: rest => unitCharacter? rest
  | '\\' :: c :: rest => (shortEscape? c).map fun c => (c, rest)
  | c :: rest => if c.toNat < 0x20 then none else some (c, rest)
  | [] => none

/-- The characters up to the closing quote. -/
def textBody? : Nat → List Char → Option (List Char × List Char)
  | 0, _ => none
  | n + 1, cs =>
    match cs with
    | '"' :: rest => some ([], rest)
    | cs => do
      let (c, rest) ← character? cs
      let (t, rest) ← textBody? n rest
      return (c :: t, rest)

/-- A text after its opening quote. -/
def text? (cs : List Char) : Option (String × List Char) :=
  (textBody? (cs.length + 1) cs).map fun p => (String.ofList p.1, p.2)

/-! ## Numbers -/

/-- A point and the digits after it. -/
def fraction (cs : List Char) : List Char × List Char :=
  match cs with
  | '.' :: rest =>
    let (ds, rest) := rest.span Text.isAsciiDigit
    if ds.isEmpty then ([], cs) else ('.' :: ds, rest)
  | _ => ([], cs)

/-- An exponent with its mark. -/
def exponent (cs : List Char) : List Char × List Char :=
  match cs with
  | 'e' :: rest | 'E' :: rest =>
    let (mark, rest) := match rest with
      | '+' :: rest => (['e', '+'], rest)
      | '-' :: rest => (['e', '-'], rest)
      | rest => (['e'], rest)
    let (ds, rest) := rest.span Text.isAsciiDigit
    if ds.isEmpty then ([], cs) else (mark ++ ds, rest)
  | _ => ([], cs)

/-- A number: an integer if it has neither fraction nor exponent. -/
def number? (cs : List Char) : Option (Value × List Char) := do
  let (negative, body) := Numeral.splitMinus cs
  let (w, rest) := Numeral.leadingDigits body
  let (f, rest) := fraction rest
  let (e, rest) := exponent rest
  guard !w.isEmpty
  if f.isEmpty && e.isEmpty then
    guard (w.length ≤ Numeral.maxDigits)
    return (.int (Numeral.signed negative (Numeral.ofAsciiDigits w)), rest)
  else
    let sign := if negative then ['-'] else []
    let x ← Numeral.plainDecimal? (sign ++ w ++ f ++ e)
    return (.float x, rest)

/-! ## All values -/

/-- The words and what they stand for. -/
def words : List (String × Value) :=
  [("null", .none), ("true", .bool true), ("false", .bool false), ("NaN", .float Double.nan),
    ("Infinity", .float (Double.infinity false)), ("-Infinity", .float (Double.infinity true))]

/-- A word at the start. -/
def word? (cs : List Char) : Option (Value × List Char) :=
  (words.find? fun w => w.1.toList.isPrefixOf cs).map fun w => (w.2, cs.drop w.1.length)

mutual

/-- A value at the start. -/
def value? : Nat → List Char → Option (Value × List Char)
  | 0, _ => none
  | n + 1, cs =>
    match skip cs with
    | '"' :: rest => (text? rest).map fun p => (.text p.1, p.2)
    | '[' :: rest =>
      match skip rest with
      | ']' :: rest => some (.list [], rest)
      | rest => (items? n rest).map fun p => (.list p.1, p.2)
    | '\x7b' :: rest =>
      match skip rest with
      | '\x7d' :: rest => some (.map [], rest)
      | rest => (members? n rest).map fun p => (.map (Value.mapEntries p.1), p.2)
    | cs => (word? cs).orElse fun _ => number? cs

/-- The items of an array up to its end. -/
def items? : Nat → List Char → Option (List Value × List Char)
  | 0, _ => none
  | n + 1, cs => do
    let (v, rest) ← value? n cs
    match skip rest with
    | ',' :: rest =>
      let (vs, rest) ← items? n rest
      return (v :: vs, rest)
    | ']' :: rest => return ([v], rest)
    | _ => none

/-- The members of an object up to its end. -/
def members? : Nat → List Char → Option (List (Value × Value) × List Char)
  | 0, _ => none
  | n + 1, cs => do
    let '"' :: rest := skip cs | none
    let (k, rest) ← text? rest
    let ':' :: rest := skip rest | none
    let (v, rest) ← value? n rest
    match skip rest with
    | ',' :: rest =>
      let (es, rest) ← members? n rest
      return ((.text k, v) :: es, rest)
    | '\x7d' :: rest => return ([(.text k, v)], rest)
    | _ => none

end

/-- **The value that a text of JSON describes.** -/
def read? (s : String) : Option Value := do
  let cs := s.toList
  let (v, rest) ← value? (cs.length + 1) cs
  if (skip rest).isEmpty then return v else none

end ScanJobs.Json
