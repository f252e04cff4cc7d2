import ScanJobs.Journal
import ScanJobs.Task.Basic

/-! # Engines

An engine runs jobs. A job is made for a configuration, takes settings until it is submitted, and can
then be asked for its counters or the text of its failure.
-/

namespace ScanJobs

namespace Engine

/-- The classes that a job may be given for what it puts out. -/
inductive Slot where
  | outputKey
  | outputValue
  | mapOutputKey
  | mapOutputValue
deriving DecidableEq, Repr

/-- The name of a slot. -/
def Slot.name : Slot → String
  | .outputKey => "output_key"
  | .outputValue => "output_value"
  | .mapOutputKey => "map_output_key"
  | .mapOutputValue => "map_output_value"

/-- A class of keys or values that a job puts out. The marker stands for nothing. -/
inductive OutputClass where
  | marker
  | other (name : String)
deriving DecidableEq, Repr

/-- The name of the class. -/
def OutputClass.name : OutputClass → String
  | .marker => "NullType"
  | .other name => name

/-- The marker class has no objects. -/
def OutputClass.createMarker : Except Failure Unit :=
  .error (.job .markerCreated)

/-- A setting of a job. -/
inductive Setting (σ τ : Type) where
  | name (v : Value)
  | output (slot : Slot) (c : Option OutputClass)
  | reduceTasks (count : Value)
  | task (c : ClassArg (TaskClass σ τ))
  | reader (c : ClassArg ReaderClass)

/-- The name of a setting. -/
def Setting.label {σ τ : Type} : Setting σ τ → String
  | .name _ => "name"
  | .output slot _ => slot.name ++ "_class"
  | .reduceTasks _ => "reduce_task_count"
  | .task _ => "worker_task_class"
  | .reader _ => "input_reader_class"

/-- What a caller who waits looks at: whether he is told to stop, or why he cannot find out. He looks at
once, and as long as tasks are left he waits for some time and looks again, if he can wait for so long. -/
structure Token where
  first : Except Failure Bool
  later : List (Except Failure Bool)

/-- The first answer that ends a wait. -/
def firstWord : List (Except Failure Bool) → Except Failure Bool
  | [] => .ok false
  | .ok false :: answers => firstWord answers
  | answer :: _ => answer

/-- What is told to one who waits. -/
def Token.requested (t : Token) : Except Failure Bool :=
  firstWord (t.first :: t.later)

/-- The world with its journal, and a job of an engine. -/
structure Stage (σ η : Type) where
  journal : Journal σ
  job : η

namespace Stage

variable {σ η α : Type}

/-- An act on the world and its journal. -/
def onJournal (a : Act (Journal σ) α) : Act (Stage σ η) α :=
  Act.zoom Stage.journal (fun j s => { s with journal := j }) a

/-- An act on the job. -/
def onJob (a : Act η α) : Act (Stage σ η) α :=
  Act.zoom Stage.job (fun h s => { s with job := h }) a

end Stage

end Engine

open Engine in
/-- An engine whose jobs are of type `η`. What it tells of itself and of a job may be any value. -/
structure Engine (σ τ η : Type) where
  name : Value
  /-- A new job for what is given as its configuration. -/
  create : Given Config.Flat → Act (Journal σ) η
  /-- Changes a setting of the job. -/
  assign : Setting σ τ → Act (Stage σ η) Unit
  /-- Submits the job and waits; tells whether the job succeeded. -/
  submit : Option Token → Act (Stage σ η) Bool
  jobId : Act (Stage σ η) Value
  /-- The counters of the job, a map of groups to maps of names to numbers. -/
  counters : Act (Stage σ η) Value
  /-- Why the job failed. -/
  failureText : Act (Stage σ η) Value

end ScanJobs
