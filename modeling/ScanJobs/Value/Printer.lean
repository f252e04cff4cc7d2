import ScanJobs.Value.Basic
import ScanJobs.Number.Numeral
import ScanJobs.Number.Shortest
import ScanJobs.Text.Quoted

/-! # Values as text

`display` writes a value so that its type can be told, with texts quoted; messages show values in
this form. `plain` writes a text as itself and a member by its name, and all else as `display` does;
this is the form in which values are stored as text. No integer with more than `maxDigits` digits is
written: a value that has one can be neither shown nor stored (`isShowable`, `isStorable`).
-/

namespace ScanJobs.Value

/-- A payload, with texts quoted. -/
def displayPayload : Payload → String
  | .int n => toString n
  | .text s => Text.quoted s

/-- A member with its payload. -/
def displayMember (m : Member) : String :=
  "<" ++ m.family ++ "." ++ m.name ++ ": " ++ displayPayload m.payload ++ ">"

/-- Items between commas. -/
def commaList (items : List String) : String :=
  String.intercalate ", " items

mutual

/-- The value with its type visible. -/
def display : Value → String
  | .none => "None"
  | .bool b => if b then "True" else "False"
  | .int n => toString n
  | .float x => x.text
  | .text s => Text.quoted s
  | .bytes bs => Text.quotedBytes bs
  | .member m => displayMember m
  | .list xs => "[" ++ commaList (displayAll xs) ++ "]"
  | .tuple [x] => "(" ++ display x ++ ",)"
  | .tuple xs => "(" ++ commaList (displayAll xs) ++ ")"
  | .set [] => "set()"
  | .set xs => "\x7b" ++ commaList (displayAll xs) ++ "\x7d"
  | .frozenset [] => "frozenset()"
  | .frozenset xs => "frozenset(\x7b" ++ commaList (displayAll xs) ++ "\x7d)"
  | .map es => "\x7b" ++ commaList (displayEntries es) ++ "\x7d"

/-- The values one by one. -/
def displayAll : List Value → List String
  | [] => []
  | x :: xs => display x :: displayAll xs

/-- The entries one by one. -/
def displayEntries : List (Value × Value) → List String
  | [] => []
  | (k, v) :: es => (display k ++ ": " ++ display v) :: displayEntries es

end

/-- A member by its name; a transparent one of a number by the number. -/
def plainMember (m : Member) : String :=
  match m.transparent, m.payload with
  | true, .int n => toString n
  | _, _ => m.family ++ "." ++ m.name

/-- The value as it is stored. -/
def plain : Value → String
  | .text s => s
  | .member m => plainMember m
  | v => display v

/-! ## What can be written -/

/-- The integers of a payload. -/
def payloadIntegers : Payload → List Int
  | .int n => [n]
  | .text _ => []

mutual

/-- The integers that `display` spells. -/
def displayIntegers : Value → List Int
  | .int n => [n]
  | .member m => payloadIntegers m.payload
  | .list xs | .tuple xs | .set xs | .frozenset xs => itemIntegers xs
  | .map es => entryIntegers es
  | _ => []

/-- Those of the values one by one. -/
def itemIntegers : List Value → List Int
  | [] => []
  | x :: xs => displayIntegers x ++ itemIntegers xs

/-- Those of the entries one by one. -/
def entryIntegers : List (Value × Value) → List Int
  | [] => []
  | (k, v) :: es => displayIntegers k ++ displayIntegers v ++ entryIntegers es

end

/-- The integers that `plain` spells. A member that is written under its name spells none. -/
def plainIntegers : Value → List Int
  | .member m => if m.transparent then payloadIntegers m.payload else []
  | v => displayIntegers v

/-- **The value can be shown**: no integer in it has too many digits. -/
def isShowable (v : Value) : Bool :=
  v.displayIntegers.all fun n => decide (Numeral.IsShort n)

/-- **The value can be stored as text**: no integer in it has too many digits. -/
def isStorable (v : Value) : Bool :=
  v.plainIntegers.all fun n => decide (Numeral.IsShort n)

end ScanJobs.Value
