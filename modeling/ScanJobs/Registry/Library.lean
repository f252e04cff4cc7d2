import ScanJobs.Registry.Resolve

/-! # Libraries

A library has modules that can be imported, and registries. Importing a module for the first time may
register factories and may fail; a module that failed is tried again the next time. The first
registry is the one that serves where no other is named.
-/

namespace ScanJobs

open Text

/-- What a module registers. Why it cannot be registered shows when the module is imported: first
what is wrong with the registry, last what is wrong with the name. -/
structure Registration where
  registry : Except Failure Nat
  factory : Option Factory
  name : Except Failure (Option String)

/-- What importing a module does. -/
structure Module where
  registers : List Registration
  raises : Option Raised

/-- A library. -/
structure Library where
  registries : List Registry
  modules : Table String Module
  loaded : List String
  /-- The names of the modules in the order in which imports were asked for. -/
  imports : List String

namespace Library

/-- A library with an empty registry and without modules. -/
def empty : Library := ⟨[Registry.empty], Table.empty, [], []⟩

instance : Inhabited Library := ⟨empty⟩

/-- A registry of the library. -/
def registry (l : Library) (i : Nat) : Registry :=
  l.registries.getD i Registry.empty

/-- The library with another registry. -/
def newRegistry (l : Library) : Nat × Library :=
  (l.registries.length, { l with registries := l.registries ++ [Registry.empty] })

/-- The library with a registry changed. -/
def setRegistry (l : Library) (i : Nat) (r : Registry) : Library :=
  { l with registries := l.registries.set i r }

/-- An act on a registry of the library. -/
def onRegistry {α : Type} (i : Nat) (a : Act Registry α) : Act Library α :=
  Act.zoom (·.registry i) (fun r l => l.setRegistry i r) a

/-- Registers a factory. -/
def register (i : Nat) (f : Option Factory) (name : Option String) : Act Library String :=
  onRegistry i (Registry.register f name)

/-- The prefixes of a dotted name, the shortest first, with the name itself. -/
def prefixes (name : String) : List String :=
  let parts := split '.' name
  ((List.range parts.length).map fun n => join '.' (parts.take (n + 1)))

/-- The first prefix of a name that is no module. -/
def missingOf (l : Library) (name : String) : String :=
  ((prefixes name).find? fun m => !l.modules.contains m).getD name

/-- Registers what a module does. -/
def enter (r : Registration) : Act Library Unit := do
  let i ← Act.ofExcept r.registry
  if r.factory.isNone then throw (.job .notCallable)
  let _ ← register i r.factory (← Act.ofExcept r.name)

/-- Runs a module. -/
def runModule (name : String) (m : Module) : Act Library Unit := do
  m.registers.forM enter
  match m.raises with
  | some f => throw (.raised f)
  | none => Act.change fun l => { l with loaded := l.loaded ++ [name] }

/-- **Imports a module.** -/
def importModule (name : String) : Act Library Unit := do
  Act.change fun l => { l with imports := l.imports ++ [name] }
  let l ← Act.read id
  if l.loaded.contains name then pure ()
  else match l.modules.get? name with
    | none => throw (.job (.noModule (l.missingOf name)))
    | some m => runModule name m

/-- The library as a host, with one of its registries. -/
def host (behaviour : JobClass → Job.Behaviour) (i : Nat) : Host Library where
  registry := (·.registry i)
  importModule := importModule
  behaviour

end Library

end ScanJobs
