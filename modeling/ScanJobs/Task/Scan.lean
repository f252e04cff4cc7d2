import ScanJobs.Task.Basic
import ScanJobs.Config.Keys
import ScanJobs.Config.View
import ScanJobs.Metrics.Standard
import ScanJobs.Registry.Resolve

/-! # Tasks that run scan jobs

A scan task finds the name of its job in the configuration of the engine, makes a job by that name,
hands it the configuration that was merged for it, and lets it process the rows. It counts the rows
that the job processed and those on which it failed. A vertex task sees each row as a vertex.
-/

namespace ScanJobs.ScanTask

open Config

variable {σ α : Type}

/-- Whether the job of a task may count. -/
inductive Counting where
  | notYet
  | allowed
  /-- What was given to count with does not count. -/
  | refused (f : Failure)

/-- Counting as it is with what was given to count with. -/
def Counting.of (refusal : Option Failure) : Counting :=
  refusal.elim .allowed .refused

/-- Why the job cannot count, if it was given something else to count with. -/
def Counting.refusal? : Counting → Option Failure
  | .refused f => some f
  | _ => none

/-- The state of a scan task: its job, and whether the job may count. -/
structure State where
  job : Option Job.Instance
  counting : Counting

/-- The state of a new task. -/
def State.fresh : State := ⟨none, .notYet⟩

/-- An act of a job, which counts with its task and keeps what it keeps. -/
def onJob (job : Job.Instance) (a : Act Job.Bench α) : Act (Frame σ State) α :=
  Act.ofFun fun f =>
    let (r, b) := a.on ⟨job.kept, f.counters, f.task.counting.refusal?⟩
    (r, { f with task.job := some { job with kept := b.kept }, counters := b.counters })

/-- Counts for the job. -/
def count (metric : String) : Act (Frame σ State) Unit := do
  match ← Act.read fun f => f.task.counting.refusal? with
  | some f => throw f
  | none => Frame.counting (Metrics.increment metric (.int 1))

/-- The name of the job, as the configuration has it. -/
def jobName (config : Flat) : Except Failure String :=
  match config.get? Keys.standard.jobClass with
  | none => .error (.job (.unnamed Keys.standard.jobClass))
  | some n =>
    if Text.isBlank n then .error (.job (.unnamed Keys.standard.jobClass)) else .ok (Text.strip n)

/-- The configuration of a job with this root. -/
def jobConfig (root : Given Schema.Node) (config : Flat) : Except Failure (Option Application) := do
  if !root.isSome then return none
  else
    let w ← View.create (← root.get "namespace") Keys.standard.above
    return some (← w.toApplication config)

/-- Makes the job that the configuration names. -/
def makeJob (h : Host σ) : Act (Frame σ State) Job.Instance := do
  let config ← Act.read Frame.config
  let name ← Act.ofExcept (jobName config)
  let job ← Frame.onWorld (h.create name (config.get? Keys.standard.jobModule))
  Act.change fun f => { f with task.job := some job }
  return job

/-- Lets the job count, unless what it was given refuses, and starts it. -/
def startJob (h : Host σ) (refusal : Option Failure) (job : Job.Instance) :
    Act (Frame σ State) Unit := do
  Act.change fun f => { f with task.counting := .of refusal }
  let b := h.behaviour job.jobClass
  Act.ofExcept (b.check "job_worker_iteration_start")
  let app ← Act.ofExcept (jobConfig b.root (← Act.read Frame.config))
  onJob job (b.start app)

/-- **Sets up a task.** It may have been given something that refuses to count. -/
def setup (h : Host σ) (refusal : Option Failure) : Act (Frame σ State) Unit := do
  startJob h refusal (← makeJob h)

/-- Sets up a task for which there are no counters, which goes no further than to make the job. -/
def setupUncounted (h : Host σ) : Act (Frame σ State) Unit := do
  let _ ← makeJob h
  throw (.missing "counters")

/-- The job of a task that was set up. -/
def ready? (s : State) : Option Job.Instance :=
  match s.counting with
  | .notYet => none
  | _ => s.job

/-- Shows a row to the job. -/
def process (h : Host σ) (p : Presentation) (job : Job.Instance) (row : Row) :
    Act (Frame σ State) Unit := do
  let r ← Act.ofExcept (row.present p)
  onJob job ((h.behaviour job.jobClass).process p r)

/-- **Processes a row**, and counts whether the job failed on it. -/
def map (h : Host σ) (p : Presentation) (row : Row) : Act (Frame σ State) Unit := do
  match ← Act.read fun f => ready? f.task with
  | none => throw (.job .mapBeforeSetup)
  | some job =>
    match ← Act.attempt (process h p job row) with
    | .ok () => count Metrics.success
    | .error e =>
      if e.isOrdinary then count Metrics.failure
      throw e

/-- **Ends a task.** -/
def cleanup (h : Host σ) : Act (Frame σ State) Unit := do
  match ← Act.read fun f => ready? f.task with
  | none => pure ()
  | some job => onJob job (h.behaviour job.jobClass).finish

/-- The names of the two classes of scan tasks. -/
def className : Presentation → String
  | .row => "ScanWorkerTask"
  | .vertex => "VertexScanWorkerTask"

/-- **The class of tasks** that show rows in one way. -/
def tasks (h : Host σ) (p : Presentation) : TaskClass σ State where
  name := className p
  create := .ok .fresh
  setup := setup h none
  map := map h p
  cleanup := cleanup h

end ScanJobs.ScanTask
