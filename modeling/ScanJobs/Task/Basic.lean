import ScanJobs.Counters
import ScanJobs.Config.Flat
import ScanJobs.Given
import ScanJobs.Task.Row

/-! # Tasks and readers

An engine cuts the rows of a store into splits and runs one task on each. A reader plans the splits
and reads the rows of one; a task is set up, maps the rows in turn and is cleaned up. Readers and
tasks are named by classes, of which each task gets objects of its own.
-/

namespace ScanJobs

/-- What reading a split yields: rows, and a failure after them if there is one. -/
structure Feed where
  rows : List Row
  failure : Option Failure

/-- A reader of a store. -/
structure Reader where
  splits : Except Failure (List Value)
  read : Value → Feed

/-- A class of readers, which are made for what is given as the configuration of an engine. -/
structure ReaderClass where
  name : String
  create : Given Config.Flat → Except Failure Reader
  /-- Hands the class and a split to another process. -/
  handing : Value → Except Failure Unit := fun _ => .ok ()

/-- What a task works with: the world, the configuration of the engine, its own state and its
counters. -/
structure Frame (σ τ : Type) where
  world : σ
  config : Config.Flat
  task : τ
  counters : Counters

namespace Frame

variable {σ τ α : Type}

/-- An act on the world. -/
def onWorld (a : Act σ α) : Act (Frame σ τ) α :=
  Act.zoom Frame.world (fun w f => { f with world := w }) a

/-- An act on the counters. -/
def counting (a : Act Counters α) : Act (Frame σ τ) α :=
  Act.zoom Frame.counters (fun c f => { f with counters := c }) a

end Frame

/-- A class of tasks with states of type `τ`. -/
structure TaskClass (σ τ : Type) where
  name : String
  create : Except Failure τ
  setup : Act (Frame σ τ) Unit
  map : Row → Act (Frame σ τ) Unit
  cleanup : Act (Frame σ τ) Unit
  /-- Hands the class to another process. -/
  handing : Except Failure Unit := .ok ()

/-- A class of this name whose objects cannot be made. -/
def TaskClass.failing {σ τ : Type} (name : String) (f : Failure) : TaskClass σ τ where
  name
  create := .error f
  setup := pure ()
  map _ := pure ()
  cleanup := pure ()

/-- A class of this name whose readers cannot be made. -/
def ReaderClass.failing (name : String) (f : Failure) : ReaderClass where
  name
  create _ := .error f

/-- What is given in the place of a class. -/
inductive ClassArg (α : Type) where
  | cls (c : α)
  | null
  /-- Something else, as messages show it, with the name of its type and the value it stands for. -/
  | other (shown typeName : String) (value : Value)

namespace ClassArg

variable {α : Type}

/-- What the argument is for one who does not check it; `failing` is a class without objects. -/
def unchecked (failing : String → Failure → α) : ClassArg α → Option α
  | .cls c => some c
  | .null => none
  | .other shown typeName _ => some (failing shown (.shape (.notCallable typeName)))

/-- How messages show the argument; classes have names. -/
def shown (name : α → String) : ClassArg α → String
  | .cls c => name c
  | .null => Value.none.display
  | .other shown _ _ => shown

/-- The argument as a value: a class by its name. -/
def value (name : α → String) : ClassArg α → Value
  | .cls c => .text (name c)
  | .null => .none
  | .other _ _ v => v

end ClassArg

end ScanJobs
