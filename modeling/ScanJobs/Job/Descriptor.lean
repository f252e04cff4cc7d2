import ScanJobs.Engine.Basic
import ScanJobs.Job.Behaviour

/-! # Descriptors

A descriptor says all that an engine needs to know of a scan job besides the configuration: its name,
its tasks and its reader. One that is built has a name that is not blank and both classes; one that is
put together may have anything in their places. Scan jobs have no reduce phase and put nothing out.
-/

namespace ScanJobs.Job

open Engine Text

variable {σ τ : Type}

/-- A job to submit. -/
structure Descriptor (σ τ : Type) where
  name : Value
  task : ClassArg (TaskClass σ τ)
  reader : ClassArg ReaderClass
  /-- The number of reduce tasks, which is zero. -/
  reduceTasks : Value

namespace Descriptor

/-- The slots of what a job puts out, in the order in which they are set. -/
def slots : List Slot :=
  [.outputKey, .outputValue, .mapOutputKey, .mapOutputValue]

/-- The class in each slot. -/
def outputs : List OutputClass :=
  slots.map fun _ => .marker

/-- The number of reduce tasks. -/
def noReduceTasks : Value := .int 0

/-- Whether a descriptor may ask for these reduce tasks and outputs. -/
def check (reduceTasks : Value) (outputs : List (Option OutputClass)) : Except Failure Unit :=
  if !Value.same reduceTasks noReduceTasks then .error (.job .hasReducePhase)
  else if outputs.any (· ≠ some .marker) then .error (.job .hasOutput)
  else .ok ()

/-- The class, if it is one. -/
def classOf {α : Type} (role : String) : ClassArg α → Except Failure α
  | .cls c => .ok c
  | .null => .error (.job (.notClass role Value.none.display))
  | .other shown _ _ => .error (.job (.notClass role shown))

/-- A name that is given and not blank, stripped. -/
def nameOf (name : Value) : Except Failure String := do
  match name with
  | .none => .error (.blank "job_name")
  | v =>
    let n ← v.textFor "strip"
    if isBlank n then .error (.blank "job_name") else return strip n

/-- **A descriptor** of these parts, for a configuration, which must be given. -/
def build (config : Given Config.Flat) (reader : ClassArg ReaderClass) (name : Value)
    (task : ClassArg (TaskClass σ τ)) : Except Failure (Descriptor σ τ) := do
  if !config.isSome then .error (.missing "engine_config")
  else
    let name ← nameOf name
    let task ← classOf "worker_task_class" task
    return ⟨.text name, .cls task, .cls (← classOf "input_reader_class" reader), noReduceTasks⟩

/-- The name of a job in lists of jobs: the class of its tasks, and the job itself. -/
def listName (taskClass label : String) : String :=
  taskClass ++ "[" ++ label ++ "]"

/-- The settings of a job, in the order in which they are made. -/
def settings (d : Descriptor σ τ) : List (Setting σ τ) :=
  .name d.name :: (slots.map fun s => .output s (some .marker)) ++
    [.reduceTasks d.reduceTasks, .task d.task, .reader d.reader]

end Descriptor

end ScanJobs.Job
