import ScanJobs.Script.Thing

/-! # Sessions

A session knows the things of a script by name, and holds what of them can change by number, so that
several names may stand for one thing. A step of a script is an act on the session. The classes that
a job or a task needs are looked up when it runs, with the schema as it is then.
-/

namespace ScanJobs.Script

open Schema Config Engine

/-- A local job, with what is meant to be its configuration and its task. -/
structure LocalEntry where
  job : LocalJob World TaskState
  config : Thing
  task : Thing

/-- A task that a script runs by hand, with the number of its counters. -/
structure Worker where
  state : TaskState
  counters : Nat

/-- What a script works with. -/
structure Session where
  names : Table String Thing
  schema : Schema
  flats : Array Flat
  counters : Array Counters
  /-- Whether those who wait with a token are told to stop. -/
  tokens : Array Bool
  jobs : Array LocalEntry
  workers : Array Worker
  classes : Array Class
  /-- The names of the functions. -/
  functions : Array String
  /-- The modules of the types that need an import. -/
  modules : List (String × String)
  world : World

/-- An act on a session. -/
abbrev Step (α : Type) := Act Session α

/-- What an act came to, and the lines that it wrote. -/
structure Logged (α : Type) where
  result : Except Failure α
  lines : List Line

namespace Session

/-- The session at the start of a script. -/
def empty : Session where
  names := Table.empty
  schema := Schema.empty
  flats := #[]
  counters := #[]
  tokens := #[]
  jobs := #[]
  workers := #[]
  classes := #[]
  functions := #[]
  modules := []
  world := World.empty

/-- Gives a thing a name. -/
def bind (name : String) (t : Thing) (s : Session) : Session :=
  { s with names := s.names.insert name t }

/-- A new class, and the session with it. -/
def withClass (module qualname : String) (role : Role) (s : Session) : Class × Session :=
  let c : Class := ⟨⟨s.classes.size, module, qualname⟩, role⟩
  (c, { s with classes := s.classes.push c })

/-- The session that starts with some classes, each in a module, under their own names, and that knows
the modules of some types. -/
def start (known : List (String × String × Role)) (modules : List (String × String)) : Session :=
  known.foldl
    (fun s k => let (c, s) := s.withClass k.1 k.2.1 k.2.2; s.bind k.2.1 (.cls c))
    { empty with modules }

/-- The full name of the type of a thing. -/
def typeNameOf (s : Session) (t : Thing) : String :=
  (s.modules.lookup t.typeName).getD "builtins" ++ "." ++ t.typeName

/-- What the objects of a class do. -/
def behaviour (s : Session) (c : JobClass) : Job.Behaviour :=
  match s.classes[c.number]? with
  | some k => k.behaviour s.schema
  | none => foreignBehaviour c.shortName c.shortName (.ok ())

/-- A host that uses one of the registries. -/
def host (s : Session) (registry : Nat) : Host World :=
  World.host s.behaviour registry

/-- The first registry, which serves where no other is named. -/
def mainRegistry : Nat := 0

/-- The classes of scan tasks. -/
def scan (s : Session) : Presentation → TaskClass World TaskState :=
  ScanTask.tasks (s.host mainRegistry)

/-- A flat configuration by its number. -/
def flatAt (s : Session) (number : Nat) : Flat :=
  s.flats.getD number Flat.empty

/-- The marker class. -/
def marker (s : Session) : JobClass :=
  ((s.classes.find? fun c => c.role matches .marker).map Class.identity).getD
    ⟨0, "builtins", OutputClass.marker.name⟩

/-- What is needed to show things. -/
def scene (s : Session) : Thing.Scene :=
  ⟨s.flatAt, s.marker⟩

/-- How messages show a thing. -/
def display (s : Session) (t : Thing) : String :=
  t.display s.scene

/-- A thing as text. -/
def plain (s : Session) (t : Thing) : String :=
  t.plain s.scene

/-- The thing in the place of a class of tasks. -/
def taskArg (s : Session) (t : Thing) : ClassArg (TaskClass World TaskState) :=
  t.classArg s.scene (Class.task s.scan)

/-- The thing in the place of a class of readers. -/
def readerArg (s : Session) (t : Thing) : ClassArg ReaderClass :=
  t.classArg s.scene Class.reader

/-- The thing where a flat configuration is meant. -/
def givenFlat (s : Session) (t : Thing) : Given Flat :=
  t.givenFlat s.flatAt

/-- The thing where an element is meant. -/
def givenNode (s : Session) (t : Thing) : Given Node :=
  (t.given Thing.site?).bind fun site => Given.ofOption (s.schema.node? site)

/-- Whether a thing stands for true. Configurations without entries do not. -/
def truth (s : Session) : Thing → Bool
  | .value v => v.truth
  | .application a => a.values.size != 0
  | .flat number => (s.flatAt number).values.size != 0
  | _ => true

/-- A new object of what makes jobs; any other thing cannot be called. -/
def newObject (s : Session) (t : Thing) : Except Failure JobClass :=
  match t.factory? with
  | none => .error (.shape (.notCallable t.typeName))
  | some f => ((s.host mainRegistry).newJob f.makes).map fun _ => f.makes

/-- A new object, if there is anything to make it from. -/
def newObjectIfAny (s : Session) (t : Thing) : Except Failure (Option JobClass) :=
  if t.isSome then (s.newObject t).map some else .ok none

/-- Counters by their number. -/
def countersAt (s : Session) (number : Nat) : Counters :=
  s.counters.getD number Counters.empty

/-! ## Steps -/

/-- Adds a class. -/
def newClass (module qualname : String) (role : Role) : Step Class :=
  Act.ofFun fun s => let (c, s) := s.withClass module qualname role; (.ok c, s)

/-- Adds a flat configuration. -/
def newFlat (c : Flat) : Step Thing :=
  Act.ofFun fun s => (.ok (.flat s.flats.size), { s with flats := s.flats.push c })

/-- Puts another flat configuration in the place of one. -/
def setFlat (number : Nat) (c : Flat) : Step Unit :=
  Act.change fun s => { s with flats := s.flats.setIfInBounds number c }

/-- Adds a scripted engine, which was asked nothing yet. -/
def newEngine (e : EngineScript) : Step Thing :=
  Act.ofFun fun s =>
    (.ok (.engine (.scripted s.world.calls.size e)),
      { s with world.calls := s.world.calls.push [] })

/-- The part of a thing, which must be of one sort. -/
def use {α : Type} (f : Thing → Option α) (part : String) (t : Thing) : Step α :=
  Act.ofExcept (t.use f part)

/-- The part of a thing, if it is there. -/
def useIfAny {α : Type} (f : Thing → Option α) (part : String) (t : Thing) : Step (Option α) :=
  Act.ofExcept (t.useIfAny f part)

/-- An act on the world. -/
def onWorld {α : Type} (a : Act World α) : Step α :=
  Act.zoom Session.world (fun world s => { s with world }) a

/-- An act that writes lines. What it came to is told with them. -/
def logged {α : Type} (a : Act (Journal World) α) : Step (Logged α) :=
  Act.ofFun fun s =>
    let (r, j) := a.on (Journal.start s.world)
    (.ok ⟨r, j.lines⟩, { s with world := j.world })

end Session

end ScanJobs.Script
