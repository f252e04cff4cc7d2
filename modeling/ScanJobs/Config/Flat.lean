import ScanJobs.Table
import ScanJobs.Value.Shape

/-! # Flat configurations

Engines know only texts under keys. Blanks at the ends of a key do not count when a text is stored.
A text may also be given as a member of an enumeration of texts, which a configuration keeps and its
copies spell out. `get?` is what a flat configuration means: storing and removing change it at one
key.
-/

namespace ScanJobs.Config

open Text

/-- A text of a flat configuration. -/
inductive FlatText where
  | written (s : String)
  /-- A member of an enumeration, in the place of its payload. -/
  | named (family name text : String)
deriving DecidableEq, Repr

namespace FlatText

/-- The text itself. -/
def text : FlatText → String
  | .written s => s
  | .named _ _ s => s

/-- The text as a value. -/
def value : FlatText → Value
  | .written s => .text s
  | .named family name s => .member ⟨family, name, .text s, true⟩

/-- The text spelled out: a member stands under its own name. -/
def spelledOut (t : FlatText) : FlatText :=
  .written t.value.plain

/-- A value that is a text. -/
def ofValue? (v : Value) : Option FlatText :=
  match v with
  | .text s => some (.written s)
  | .member ⟨family, name, .text s, true⟩ => some (.named family name s)
  | _ => none

end FlatText

/-- A flat configuration. -/
structure Flat where
  values : Table String FlatText

namespace Flat

/-- The configuration without entries. -/
def empty : Flat := ⟨Table.empty⟩

instance : Inhabited Flat := ⟨empty⟩

/-- Stores a text. -/
def store (c : Flat) (key : String) (t : FlatText) : Flat :=
  ⟨c.values.insert (strip key) t⟩

/-- Stores a text that is written out. -/
def put (c : Flat) (key text : String) : Flat :=
  c.store key (.written text)

/-- Stores several texts in turn. -/
def putAll (c : Flat) (entries : List (String × String)) : Flat :=
  entries.foldl (fun c e => c.put e.1 e.2) c

/-- **Stores a text** under a key that must not be blank. -/
def set (c : Flat) (key text : String) : Except Failure Flat :=
  if isBlank key then .error (.config .improperFlatKey) else .ok (c.put key text)

/-- Stores a value under another, if both are texts and the key is not blank. -/
def setValue (c : Flat) (key value : Value) : Except Failure Flat :=
  match key.text? with
  | none => .error (.config .improperFlatKey)
  | some k =>
    if isBlank k then .error (.config .improperFlatKey)
    else match FlatText.ofValue? value with
      | none => .error (.config (.notText key.plain value.typeName))
      | some t => .ok (c.store k t)

/-- A value as text. -/
def textOf (v : Value) : Except Failure String :=
  if v.isStorable then .ok v.plain else .error (.config .tooLong)

/-- Stores the value of an entry as text. -/
def addEntry (c : Flat) (e : Value × Value) : Except Failure Flat := do
  c.setValue e.1 (.text (← textOf e.2))

/-- The configuration that holds the values of a mapping as text. -/
def ofEntries (entries : List (Value × Value)) : Except Failure Flat :=
  entries.foldlM addEntry empty

/-- The configuration that a value describes, which is a map or stands for none. -/
def ofValue (v : Value) : Except Failure Flat := do
  ofEntries (← v.entriesIfAny)

/-- What is stored under exactly this key. -/
def stored? (c : Flat) (key : String) : Option FlatText :=
  c.values.get? key

/-- The text under exactly this key. -/
def get? (c : Flat) (key : String) : Option String :=
  (c.stored? key).map FlatText.text

/-- Removes exactly this key. -/
def unset (c : Flat) (key : String) : Flat :=
  ⟨c.values.erase key⟩

/-- The key is there. -/
def contains (c : Flat) (key : String) : Bool :=
  c.values.contains key

/-- The key is the given one, or lies below it. -/
def isUnder (above key : String) : Bool :=
  key == above || startsWith (above ++ ".") key

/-- The keys by code point. -/
def keys (c : Flat) : List String :=
  c.values.sortedKeys

/-- The keys at or below a key. All are below the empty one. -/
def keysUnder (c : Flat) (above : String) : List String :=
  if above.isEmpty then c.keys else c.keys.filter (isUnder above)

/-- A configuration with the same texts, all of them spelled out. -/
def copy (c : Flat) : Flat :=
  ⟨c.values.map FlatText.spelledOut⟩

/-- How messages show the configuration. -/
def shown (c : Flat) : String :=
  "EngineConfiguration(" ++ toString c.values.size ++ " keys)"

/-! ## What the operations do to `stored?` -/

theorem stored?_store (c : Flat) (key k : String) (t : FlatText) :
    (c.store key t).stored? k = if strip key = k then some t else c.stored? k :=
  Table.get?_insert c.values (strip key) k t

theorem stored?_copy (c : Flat) (key : String) :
    c.copy.stored? key = (c.stored? key).map FlatText.spelledOut :=
  Table.get?_map c.values FlatText.spelledOut key

end Flat

end ScanJobs.Config
