import ScanJobs.Counters
import ScanJobs.Config.Application
import ScanJobs.Given
import ScanJobs.Registry.Basic
import ScanJobs.Task.Row

/-! # What jobs do

A scan job looks at the rows of a store one by one. It may declare a configuration, is told when a
task starts and when it ends, and counts what it finds. Each task has a job of its own, which may
keep a value between calls.
-/

namespace ScanJobs.Job

/-- What a job works with: what it keeps, and the counters of its task. -/
structure Bench where
  kept : Option Value
  counters : Counters
  /-- Why the job cannot count, if it was given something else to count with. -/
  refusal : Option Failure

/-- An act that only counts. -/
def Bench.counting {α : Type} (a : Act Counters α) : Act Bench α := do
  match ← Act.read Bench.refusal with
  | some f => throw f
  | none => Act.zoom Bench.counters (fun c b => { b with counters := c }) a

/-- What the jobs of a class do. -/
structure Behaviour where
  /-- How the job is named in lists of jobs. -/
  label : String
  /-- What is given as the root of the job's configuration. -/
  root : Given Schema.Node
  /-- Whether a job can be made. -/
  create : Except Failure Unit
  /-- Before the first row of a task, with the configuration if there is a root. -/
  start : Option Config.Application → Act Bench Unit
  /-- On each row, as a task shows it. -/
  process : Presentation → Row → Act Bench Unit
  /-- After the last row of a task. -/
  finish : Act Bench Unit
  /-- The name of the class, if its objects are no jobs. -/
  foreign : Option String

/-- A job has this part; another object lacks it. -/
def Behaviour.check (b : Behaviour) (part : String) : Except Failure Unit :=
  match b.foreign with
  | none => .ok ()
  | some typeName => .error (.shape (.lacks typeName part))

/-- A job of a class, with what it keeps. -/
structure Instance where
  jobClass : JobClass
  kept : Option Value

end ScanJobs.Job
