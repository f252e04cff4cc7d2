import ScanJobs.Number.Double

/-! # Values

The values that configurations, rows and counters hold. A member of an enumeration stands for its
payload if the enumeration is transparent: it then equals the payload, compares as it does and is a
number or a text itself. `Value.same` is this equality; it tells neither `1` from `1.0` nor a set
from a frozen one. Sets hold no two values that are the same and list them in one fixed order, maps
hold no two keys that are the same and keep the order in which the keys first came.
-/

namespace ScanJobs

/-- What a member of an enumeration stands for. -/
inductive Payload where
  | int (n : Int)
  | text (s : String)
deriving DecidableEq, Repr

/-- A member of an enumeration. -/
structure Member where
  family : String
  name : String
  payload : Payload
  transparent : Bool
deriving DecidableEq, Repr

/-- A family of named members. The members of a transparent one are the payloads themselves. -/
structure Enumeration where
  family : String
  transparent : Bool
  members : List (String × Payload)
deriving DecidableEq, Repr

/-- A value. -/
inductive Value where
  | none
  | bool (b : Bool)
  | int (n : Int)
  | float (x : Double)
  | text (s : String)
  | bytes (bs : List UInt8)
  | member (m : Member)
  | list (items : List Value)
  | tuple (items : List Value)
  | set (items : List Value)
  | frozenset (items : List Value)
  | map (entries : List (Value × Value))
deriving Repr, Inhabited

namespace Payload

/-- The payload as a value. -/
def value : Payload → Value
  | .int n => .int n
  | .text s => .text s

/-- The payload as it is stored. -/
def plain : Payload → String
  | .int n => toString n
  | .text s => s

end Payload

namespace Enumeration

/-- The member with this name and payload. -/
def member (e : Enumeration) (entry : String × Payload) : Member :=
  ⟨e.family, entry.1, entry.2, e.transparent⟩

/-- The first member with this payload. -/
def ofPayload? (e : Enumeration) (p : Payload) : Option Member :=
  (e.members.find? (·.2 = p)).map e.member

/-- The member with this name. -/
def ofName? (e : Enumeration) (name : String) : Option Member :=
  (e.members.find? (·.1 = name)).map e.member

end Enumeration

namespace Value

/-- The integer that a value is: an integer, a truth value or a transparent member. -/
def integer? : Value → Option Int
  | .int n => some n
  | .bool b => some (if b then 1 else 0)
  | .member ⟨_, _, .int n, true⟩ => some n
  | _ => .none

/-- The number that a value is. -/
def number? : Value → Option Number
  | .float x => some x.number
  | v => v.integer?.map Number.ofInt

/-- The text that a value is: a text or a transparent member. -/
def text? : Value → Option String
  | .text s => some s
  | .member ⟨_, _, .text s, true⟩ => some s
  | _ => .none

/-- Whether the value stands for true: it is not zero, not empty and not nothing. -/
def truth : Value → Bool
  | .none => false
  | .bool b => b
  | .int n => n != 0
  | .float x => !x.number.eq (Number.ofInt 0)
  | .text s => !s.isEmpty
  | .bytes bs => !bs.isEmpty
  | .member ⟨_, _, .int n, true⟩ => n != 0
  | .member ⟨_, _, .text s, true⟩ => !s.isEmpty
  | .member _ => true
  | .list xs | .tuple xs | .set xs | .frozenset xs => !xs.isEmpty
  | .map es => !es.isEmpty

/-- The items of a sequence or set. -/
def items? : Value → Option (List Value)
  | .list xs | .tuple xs | .set xs | .frozenset xs => some xs
  | _ => .none

/-- The name of the type of a value. -/
def typeName : Value → String
  | .none => "NoneType"
  | .bool _ => "bool"
  | .int _ => "int"
  | .float _ => "float"
  | .text _ => "str"
  | .bytes _ => "bytes"
  | .member m => m.family
  | .list _ => "list"
  | .tuple _ => "tuple"
  | .set _ => "set"
  | .frozenset _ => "frozenset"
  | .map _ => "dict"

/-! ## Equality -/

/-- Equality of values without parts that are neither numbers nor texts. -/
def sameOther : Value → Value → Bool
  | .none, .none => true
  | .bytes x, .bytes y => x == y
  | .member x, .member y => x == y
  | _, _ => false

/-- Equality of values without parts. -/
def sameLeaf (a b : Value) : Bool :=
  match a.number?, b.number? with
  | some x, some y => x.eq y
  | _, _ =>
    match a.text?, b.text? with
    | some s, some t => s == t
    | _, _ => sameOther a b

mutual

/-- **Equality of values.** Two sets are the same if each item of one is in the other, two maps if
each entry is. -/
def same : Value → Value → Bool
  | .list xs, .list ys => sameItems xs ys
  | .tuple xs, .tuple ys => sameItems xs ys
  | .set xs, .set ys => xs.length == ys.length && allIn xs ys
  | .set xs, .frozenset ys => xs.length == ys.length && allIn xs ys
  | .frozenset xs, .set ys => xs.length == ys.length && allIn xs ys
  | .frozenset xs, .frozenset ys => xs.length == ys.length && allIn xs ys
  | .map es, .map fs => es.length == fs.length && entriesIn es fs
  | a, b => sameLeaf a b

/-- Equality of the items one by one. -/
def sameItems : List Value → List Value → Bool
  | [], [] => true
  | x :: xs, y :: ys => same x y && sameItems xs ys
  | _, _ => false

/-- Each item is the same as one of the others. -/
def allIn : List Value → List Value → Bool
  | [], _ => true
  | x :: xs, ys => (ys.any fun y => same x y) && allIn xs ys

/-- Each entry is the same as one of the others. -/
def entriesIn : List (Value × Value) → List (Value × Value) → Bool
  | [], _ => true
  | (k, v) :: es, fs => (fs.any fun f => same k f.1 && same v f.2) && entriesIn es fs

end

/-! ## Sets and maps -/

mutual

/-- The value may be an item of a set: it holds no list, set or map. -/
def isHashable : Value → Bool
  | .list _ | .set _ | .map _ => false
  | .tuple xs => allHashable xs
  | _ => true

/-- All values may be items of a set. -/
def allHashable : List Value → Bool
  | [] => true
  | x :: xs => isHashable x && allHashable xs

end

/-- One of the values is the same as `x`. -/
def isIn (x : Value) (xs : List Value) : Bool :=
  xs.any fun y => same x y

/-- The values that are the same as none before them. -/
def distinct (xs : List Value) : List Value :=
  xs.foldl (fun kept x => if isIn x kept then kept else kept ++ [x]) []

/-- The first value, within tuples too, that cannot be an item of a set. -/
def unhashable? : Value → Option Value
  | .tuple xs => firstOf xs
  | v => if v.isHashable then .none else some v
where
  firstOf : List Value → Option Value
    | [] => .none
    | x :: xs => (unhashable? x).or (firstOf xs)

/-- What the order in sets goes by. -/
inductive Rank where
  | number (x : Number)
  | text (s : String)
  | member (name : String)
  | other

/-- Members go by their names, other values by their number or text. -/
def rank : Value → Rank
  | .member m => .member m.name
  | v =>
    match v.number?, v.text? with
    | some x, _ => .number x
    | _, some s => .text s
    | _, _ => .other

/-- The order of numbers, with what is no number at the end. -/
def numberPrecedes : Number → Number → Bool
  | _, .nan => true
  | .nan, _ => false
  | x, y => x.le y

/-- The order of values without parts: numbers, texts, members, and all others as they came. -/
def leafPrecedes (a b : Value) : Bool :=
  match a.rank, b.rank with
  | .number x, .number y => numberPrecedes x y
  | .number _, _ => true
  | .text _, .number _ => false
  | .text s, .text t => s ≤ t
  | .text _, _ => true
  | .member s, .member t => s ≤ t
  | .member _, .other => true
  | .member _, _ => false
  | .other, .other => true
  | .other, _ => false

mutual

/-- The order in which a set lists its items. Tuples go by their first different items. -/
def precedes : Value → Value → Bool
  | .tuple xs, .tuple ys => itemsPrecede xs ys
  | a, b => leafPrecedes a b

/-- The order of the items of two tuples. -/
def itemsPrecede : List Value → List Value → Bool
  | [], _ => true
  | _ :: _, [] => false
  | x :: xs, y :: ys => if same x y then itemsPrecede xs ys else precedes x y

end

/-- The items of a set of these values. -/
def setItems (xs : List Value) : List Value :=
  (distinct xs).mergeSort precedes

/-- Puts an entry into a map: at the place of the same key, or at the end. -/
def putEntry (k v : Value) : List (Value × Value) → List (Value × Value)
  | [] => [(k, v)]
  | (k', v') :: es => if same k' k then (k', v) :: es else (k', v') :: putEntry k v es

/-- The value under a key in a map. -/
def valueAt? (k : Value) : List (Value × Value) → Option Value
  | [] => .none
  | (k', v) :: es => if same k' k then some v else valueAt? k es

/-- The entries of a map of these pairs; a later one takes the place of an earlier one. -/
def mapEntries (es : List (Value × Value)) : List (Value × Value) :=
  es.foldl (fun kept e => putEntry e.1 e.2 kept) []

end Value

end ScanJobs
