import ScanJobs.Act
import ScanJobs.Table
import ScanJobs.Text.Split

/-! # Registries

A registry binds names to factories of jobs, and remembers for each factory the name under which it
was bound last. Names are stripped before they are bound, and one that is bound to a factory cannot
be bound to another. `get?` is what a registry means to those who look up a name.

Factories are told apart by what they are where names are bound, and by what they are equal to where names
are remembered. A factory without a hash cannot be remembered; that shows only after its name was bound or
freed, for the two parts of a registry are written in turn.
-/

namespace ScanJobs

/-- A class of jobs. Classes are told apart by their number, and named by module and name within. -/
structure JobClass where
  number : Nat
  module : String
  qualname : String
deriving DecidableEq, Repr

/-- The full name of a class. -/
def JobClass.name (c : JobClass) : String :=
  c.module ++ "." ++ c.qualname

/-- The last part of the name of a class. -/
def JobClass.shortName (c : JobClass) : String :=
  (Text.split '.' c.qualname).getLastD ""

/-- What makes jobs: a class, a function that makes jobs of a class, or an object that can be called and
does. Objects with one `key` are equal, and one without a key has no hash. -/
inductive Factory where
  | jobClass (c : JobClass)
  | function (number : Nat) (makes : JobClass)
  | object (number : Nat) (type : JobClass) (key : Option Nat) (makes : JobClass)
deriving DecidableEq, Repr

namespace Factory

/-- What a factory is remembered by. Classes and functions are equal to themselves only. -/
inductive Key where
  | jobClass (c : JobClass)
  | function (number : Nat) (makes : JobClass)
  | object (key : Nat)
deriving DecidableEq, Repr

/-- What the factory is remembered by, if it has a hash. -/
def key? : Factory → Option Key
  | .jobClass c => some (.jobClass c)
  | .function number makes => some (.function number makes)
  | .object _ _ key _ => key.map .object

/-- The name that a factory has by itself. All functions share one, and so do the objects of a class. -/
def name : Factory → String
  | .jobClass c => c.name
  | .function .. => "builtins.function"
  | .object _ type _ _ => type.name

/-- The class of the jobs that it makes. -/
def makes : Factory → JobClass
  | .jobClass c => c
  | .function _ c => c
  | .object _ _ _ c => c

/-- The name of the type of a factory. -/
def typeName : Factory → String
  | .jobClass _ => "type"
  | .function .. => "function"
  | .object _ type _ _ => type.shortName

/-- The factory has no hash. -/
def unhashable (f : Factory) : Failure :=
  .shape (.unhashable f.typeName)

end Factory

/-- The factories of jobs by name, and the last name of each. -/
structure Registry where
  factories : Table String Factory
  lastNames : Table Factory.Key String

namespace Registry

/-- The registry without names. -/
def empty : Registry := ⟨Table.empty, Table.empty⟩

instance : Inhabited Registry := ⟨empty⟩

/-- The name to register a factory under: the given one, or its own. -/
def nameToBind (f : Factory) (name : Option String) : String :=
  Text.strip (match name with
    | some n => if n.isEmpty then f.name else n
    | none => f.name)

/-- Binds a name. -/
def bind (r : Registry) (name : String) (f : Factory) : Registry :=
  { r with factories := r.factories.insert name f }

/-- Remembers the last name of a factory. -/
def remember (r : Registry) (f : Factory) (name : String) : Except Failure Registry :=
  match f.key? with
  | some k => .ok { r with lastNames := r.lastNames.insert k name }
  | none => .error f.unhashable

/-- **Registers a factory** and tells the name. -/
def register (factory : Option Factory) (name : Option String) : Act Registry String := do
  match factory with
  | none => throw (.job .notCallable)
  | some f =>
    let n := nameToBind f name
    if Text.isBlank n then throw (.blank "name")
    else
      let bound ← Act.read fun r => r.factories.get? n
      if bound.all (· = f) then
        Act.change fun r => r.bind n f
        Act.tryChange fun r => r.remember f n
        return n
      else throw (.job (.nameTaken n))

/-- Unbinds a name. -/
def free (r : Registry) (name : String) : Registry :=
  { r with factories := r.factories.erase name }

/-- Forgets the last name of a factory. Where nothing is remembered, no hash is asked for. -/
def forget (r : Registry) (f : Factory) : Except Failure Registry :=
  match f.key? with
  | some k => .ok { r with lastNames := r.lastNames.erase k }
  | none => if r.lastNames.entries.isEmpty then .ok r else .error f.unhashable

/-- **Frees a name**, and forgets the last name of its factory. -/
def unregister (name : String) : Act Registry Unit := do
  match ← Act.read fun r => r.factories.get? name with
  | none => pure ()
  | some f =>
    Act.change fun r => r.free name
    Act.tryChange fun r => r.forget f

/-- The factory bound to a name. -/
def get? (r : Registry) (name : String) : Option Factory :=
  r.factories.get? name

/-- The name is bound. -/
def contains (r : Registry) (name : String) : Bool :=
  r.factories.contains name

/-- The names by code point. -/
def names (r : Registry) : List String :=
  r.factories.sortedKeys

/-- **The name of a class**: the last one it was registered under, or its own. -/
def nameFor (r : Registry) (c : JobClass) : String :=
  (r.lastNames.get? (.jobClass c)).getD c.name

/-- The name of what a factory itself is: a class, a function, or an object of a class. -/
def nameForFactory (r : Registry) : Factory → String
  | .jobClass c => r.nameFor c
  | .object _ type _ _ => r.nameFor type
  | f => f.name

/-! ## What the operations do to `get?` -/

theorem get?_bind (r : Registry) (n name : String) (f : Factory) :
    (r.bind n f).get? name = if n = name then some f else r.get? name :=
  Table.get?_insert r.factories n name f

theorem get?_free (r : Registry) (n name : String) :
    (r.free n).get? name = if n = name then none else r.get? name :=
  Table.get?_erase r.factories n name

end Registry

end ScanJobs
