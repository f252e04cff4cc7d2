import ScanJobs.Job.Descriptor
import ScanJobs.Script.Action
import ScanJobs.Task.Scan

/-! # Classes by name

Scripts name classes: of jobs, tasks and readers that are scripted, of scan tasks, the marker and the
class of texts. Any of them may be given where a class of one sort is meant. What its objects lack
then shows when they are used.
-/

namespace ScanJobs.Script

open Schema Engine

/-- What the objects of a class are. -/
inductive Role where
  | job (s : JobScript)
  | task (s : TaskScript)
  | reader (s : ReaderScript)
  | scanTask (p : Presentation)
  | marker
  | text
  /-- There are no objects, for it is no class but a thing of this type. -/
  | uncallable (typeName : String)

/-- A class, with what its objects are. -/
structure Class where
  identity : JobClass
  role : Role

namespace Class

/-- The name of the class. -/
def name (c : Class) : String :=
  c.identity.shortName

/-- Whether an object can be made without arguments. -/
def create (c : Class) : Except Failure Unit :=
  match c.role with
  | .job s => failIf s.createError
  | .task s => failIf s.createError
  | .marker => OutputClass.createMarker
  | .uncallable typeName => .error (.shape (.notCallable typeName))
  | .reader _ | .scanTask _ | .text => .ok ()

/-- **What jobs of the class do.** Objects that are no jobs lack all that jobs do. -/
def behaviour (schema : Schema) (c : Class) : Job.Behaviour :=
  match c.role with
  | .job s => s.behaviour schema
  | .text => foreignBehaviour c.name "" c.create
  | _ => foreignBehaviour c.name c.name c.create

/-- **The class as one of tasks**; `scan` gives the classes of scan tasks. -/
def task {σ : Type} (scan : Presentation → TaskClass σ ScanTask.State) (c : Class) :
    TaskClass σ ScanTask.State :=
  match c.role with
  | .task s => s.toClass .fresh
  | .scanTask p => scan p
  | _ => foreignTask c.name c.create .fresh

/-- The objects of the class are made without arguments, and a reader is made with one. -/
def takesNone (function : String) : Failure :=
  .shape (.tooManyArguments (function ++ ".__init__") 1 1 2)

/-- **The class as one of readers.** -/
def reader (c : Class) : ReaderClass :=
  match c.role with
  | .reader s => s.toClass
  | .marker => .failing c.name (takesNone c.name)
  | .scanTask _ => .failing c.name (takesNone (ScanTask.className .row))
  | _ => foreignReader c.name c.create

/-- The class as one of keys or values that are put out. -/
def output (c : Class) : OutputClass :=
  match c.role with
  | .marker => .marker
  | _ => .other c.name

end Class

end ScanJobs.Script
