import ScanJobs.Schema.Name
import ScanJobs.OptionType.Basic

/-! # Elements

A schema declares which keys a configuration may hold. It is a tree: a *scope* (a namespace) holds
elements under names, an *option* holds the type of its values and the default. An umbrella is a
scope that takes one name of the user's choice between itself and what it holds.
-/

namespace ScanJobs.Schema

/-- An element of a schema. -/
inductive Element where
  | scope (umbrella : Bool) (description : Value) (children : List (Name × Element))
  /-- An option without a default is one whose default was refused. -/
  | option (description : Value) (type : OptionType) (default : Option Value)
deriving Inhabited

/-- What an element is to the keys that lead through it. -/
inductive Kind where
  | scope
  | umbrella
  | option
deriving DecidableEq, Repr

namespace Element

/-- The child of this name. -/
def findChild (name : String) : List (Name × Element) → Option (Name × Element)
  | [] => none
  | c :: cs => if c.1.text = name then some c else findChild name cs

/-- The elements that an element holds. -/
def children : Element → List (Name × Element)
  | .scope _ _ cs => cs
  | .option .. => []

/-- The child of this name. -/
def child? (e : Element) (name : String) : Option (Name × Element) :=
  findChild name e.children

/-- What the element is to keys. -/
def kind : Element → Kind
  | .scope umbrella _ _ => if umbrella then .umbrella else .scope
  | .option .. => .option

/-- The description given at the declaration. -/
def description : Element → Value
  | .scope _ d _ => d
  | .option d _ _ => d

/-- The element is an option. -/
def isOption : Element → Bool
  | .option .. => true
  | .scope .. => false

/-- The element reached along these names. -/
def at? (e : Element) : List Name → Option Element
  | [] => some e
  | n :: ns => (e.child? n.text).bind fun c => at? c.2 ns

/-- Changes the first child of this name. -/
def modifyChild (name : String) (f : Element → Element) : List (Name × Element) → List (Name × Element)
  | [] => []
  | c :: cs => if c.1.text = name then (c.1, f c.2) :: cs else c :: modifyChild name f cs

/-- The element with other children. -/
def mapChildren (f : List (Name × Element) → List (Name × Element)) : Element → Element
  | .scope u d cs => .scope u d (f cs)
  | e => e

/-- Changes the element reached along these names. -/
def modifyAt (f : Element → Element) : List Name → Element → Element
  | [] => f
  | n :: ns => mapChildren (modifyChild n.text (modifyAt f ns))

/-- The scope with one more child at the end. -/
def addChild (name : Name) (child : Element) : Element → Element :=
  mapChildren (· ++ [(name, child)])

end Element

end ScanJobs.Schema
