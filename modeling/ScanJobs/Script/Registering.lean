import ScanJobs.Registry.Preflight
import ScanJobs.Script.Session

/-! # Steps on registries
-/

namespace ScanJobs.Script.Session

/-- The number of a registry; where what is given does not stand for true, the first one serves. -/
def registryNumber (s : Session) (part : String) (t : Thing) : Except Failure Nat :=
  if s.truth t then t.use Thing.registry? part else .ok mainRegistry

/-- The number of the registry that a thing is. -/
def registryOf (part : String) (t : Thing) : Step Nat := do
  Act.ofExcept ((← Act.read id).registryNumber part t)

/-- The registry that a thing is. -/
def registry (part : String) (t : Thing) : Step Registry := do
  let number ← registryOf part t
  Act.read (·.world.library.registry number)

/-- A host with the registry that a thing is. -/
def hostOf (part : String) (t : Thing) : Step (Host World) := do
  let number ← registryOf part t
  Act.read (·.host number)

/-- A new registry. -/
def newRegistry : Step Thing := do
  let l ← Act.read fun s => s.world.library
  let (number, library) := l.newRegistry
  Act.change fun s => { s with world.library := library }
  return .registry number

/-- A name that need not be given. What does not stand for true is none. -/
def nameIfAny (v : Value) : Except Failure (Option String) :=
  if v.truth then (v.textFor "strip").map some else .ok none

/-- **Registers a factory** and tells the name. -/
def register (registry factory : Thing) (name : Value) : Step String := do
  let number ← registryOf "registry_register" registry
  match factory.factory? with
  | none => throw (.job .notCallable)
  | some f =>
    let n ← Act.ofExcept (nameIfAny name)
    onWorld (World.onLibrary (Library.register number (some f) n))

/-- The name of what a thing itself is. -/
def nameOf (s : Session) (r : Registry) (t : Thing) : String :=
  match t.factory? with
  | some f => r.nameForFactory f
  | none => s.typeNameOf t

/-- The name of a class. -/
def nameFor (registry factory : Thing) : Step String := do
  let r ← Session.registry "registry_name_for" registry
  Act.read (·.nameOf r factory)

/-- The name of the class of a new object. -/
def nameForObject (registry factory : Thing) : Step String := do
  let c ← Act.ofExcept ((← Act.read id).newObject factory)
  return (← Session.registry "registry_name_for" registry).nameFor c

/-- Registers a class where it is declared, and tells its name. With nothing declared, what would
register it is left: that is not the class itself. -/
def decorate (registry factory : Thing) (name : Value) (bare : Bool) : Step (Bool × String) := do
  if bare && !factory.isSome then return (false, ← nameFor registry factory)
  else
    let _ ← register registry factory name
    return (true, ← nameFor registry factory)

/-- Frees a name, and tells those that are left. -/
def unregister (registry : Thing) (name : Value) : Step (List String) := do
  let number ← registryOf "registry_unregister" registry
  match ← Act.ofExcept name.keyText? with
  | some n => onWorld (World.onLibrary (Library.onRegistry number (Registry.unregister n)))
  | none => pure ()
  return (← Session.registry "registry_unregister" registry).names

/-- Whether a name is bound. -/
def isRegistered (registry : Thing) (name : Value) : Step Bool := do
  let r ← Session.registry "registry_contains" registry
  return (← Act.ofExcept name.keyText?).any r.contains

/-- A new function that makes what another thing makes. -/
def newFunction (name : String) (returns : Thing) : Step Thing := do
  let makes ← match returns.factory? with
    | some f => pure f.makes
    | none =>
      let typeName := returns.typeName
      let module := ((← Act.read Session.modules).lookup typeName).getD "builtins"
      pure (← newClass module typeName (.uncallable typeName)).identity
  Act.ofFun fun s =>
    (.ok (.function s.functions.size makes), { s with functions := s.functions.push name })

/-- What a module registers: a thing, under a name, in a registry. -/
def registration (s : Session) (factory : Thing) (name : Value) (registry : Thing) : Registration :=
  ⟨s.registryNumber "registry_register" registry, factory.factory?, nameIfAny name⟩

/-- Adds a module. -/
def addModule (name : String) (m : Module) : Step Unit :=
  onWorld (World.onLibrary (Act.change fun l => { l with modules := l.modules.insert name m }))

/-- The factory of what is meant to be a name. One that is no text is bound nowhere, and no module can
be made out from it. -/
def factoryOf (h : Host World) (name : Value) (owner : Option String) : Act World Factory := do
  match ← Act.ofExcept name.keyText?, owner.filter fun m => !m.isEmpty with
  | some n, _ => h.resolve n owner
  | none, some m =>
    h.importOwner name m
    throw (.job (.unbound name))
  | none, none => throw (name.lacking "split")

/-- The factory of a name, as it is told: a class by its name, a function by that of the step, an object by
that of its class. -/
def resolve (registry : Thing) (name : Value) (owner : Option String) : Step String := do
  let h ← hostOf "registry_resolve" registry
  match ← onWorld (factoryOf h name owner) with
  | .jobClass c => return c.name
  | .object _ type _ _ => return type.name
  | .function number _ => Act.read fun s => "function " ++ s.functions.getD number ""

/-- A new job by name, as text. -/
def create (registry : Thing) (name : Value) (owner : Option String) : Step String := do
  let h ← hostOf "registry_create" registry
  let f ← onWorld (factoryOf h name owner)
  let j ← Act.ofExcept (h.newJob f.makes)
  Act.read fun s => (s.behaviour j.jobClass).label

/-- **The name under which workers will find the class** of a new object. -/
def preflight (registry job : Thing) : Step (Logged String) := do
  let s ← Act.read id
  match ← Act.ofExcept (s.newObjectIfAny job) with
  | none => throw (.missing "scan_job")
  | c => logged ((← hostOf "registry_name_for" registry).preflight c)

end ScanJobs.Script.Session
