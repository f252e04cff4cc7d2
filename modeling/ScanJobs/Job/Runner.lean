import ScanJobs.Config.Merge
import ScanJobs.Job.Execute
import ScanJobs.Registry.Preflight
import ScanJobs.Task.Scan

/-! # Runners

A runner takes a job from its configuration to its outcome: the configuration is merged into that of
the engine, a registered job is checked and named there, and the job is executed. Nothing is changed
before all that can be checked has been.
-/

namespace ScanJobs.Job

open Config Engine

variable {σ τ η : Type}

/-- What is given as the configuration of the engine, beside the world. -/
structure Desk (σ : Type) where
  config : Given Flat
  journal : Journal σ

/-- An act on the world and its journal. -/
def Desk.onJournal {α : Type} (a : Act (Journal σ) α) : Act (Desk σ) α :=
  Act.zoom Desk.journal (fun j d => { d with journal := j }) a

/-- An act on the configuration. -/
def Desk.onConfig {α : Type} (a : Act (Given Flat) α) : Act (Desk σ) α :=
  Act.zoom Desk.config (fun c d => { d with config := c }) a

/-- What a job is run with. -/
structure Request (σ τ : Type) where
  app : Given Application
  root : Given Schema.Node
  reader : ClassArg ReaderClass
  name : Value
  task : ClassArg (TaskClass σ τ)

/-- **All that precedes the execution of a job**: its descriptor is made, and the job's own
configuration and the given entries are written into that of the engine. -/
def Request.prepare (r : Request σ τ) (entries : List (String × String)) :
    Act (Given Flat) (Descriptor σ τ) := do
  match (← Act.read Given.isSome), r.reader with
  | false, _ => throw (.missing "engine_config")
  | true, .null => throw (.missing "input_reader_class")
  | true, reader =>
    let d ← Act.ofExcept (Descriptor.build (← Act.read id) reader r.name r.task)
    let _ ← merge r.app r.root Keys.standard
    writeAll entries
    return d

/-- Executes a job with some entries in its configuration. -/
def executeWith (engine : Engine σ τ η) (r : Request σ τ) (entries : List (String × String))
    (token : Option Token) : Act (Desk σ) Outcome := do
  let d ← Desk.onConfig (r.prepare entries)
  Desk.onJournal (execute (some engine) (some d) (← Act.read Desk.config) token)

/-- **Executes a job** and tells its outcome. -/
def executeRequest (engine : Engine σ τ η) (r : Request σ τ) (token : Option Token) :
    Act (Desk σ) Outcome :=
  executeWith engine r [] token

/-- **Runs a job** and tells its metrics. -/
def runRequest (engine : Engine σ τ η) (r : Request σ τ) (token : Option Token) :
    Act (Desk σ) Metrics.Summary := do
  Act.ofExcept (← executeRequest engine r token).metrics

/-- The root of a job that has a configuration. -/
def rootFor (h : Host σ) (c : JobClass) (app : Given Application) :
    Except Failure (Given Schema.Node) := do
  if app.isSome then
    (h.behaviour c).check "job_config_namespace"
    return (h.behaviour c).root
  else return .nothing

/-- The entries by which workers find a registered job. -/
def entriesFor (c : JobClass) (name : String) : List (String × String) :=
  [(Keys.standard.jobClass, name), (Keys.standard.jobModule, c.module)]

/-- Runs a registered job. -/
def runJob (h : Host σ) (engine : Engine σ τ η) (task : TaskClass σ τ) (c : JobClass)
    (app : Given Application) (reader : ClassArg ReaderClass) (token : Option Token) :
    Act (Desk σ) Metrics.Summary := do
  let root ← Act.ofExcept (rootFor h c app)
  Act.ofExcept (checkPairing app root)
  let name ← Desk.onJournal (h.preflight (some c))
  let listName := Descriptor.listName task.name (h.behaviour c).label
  Desk.onJournal (Journal.log .info ("Running scan job " ++ name ++ " as " ++ listName))
  let o ← executeWith engine ⟨app, root, reader, .text listName, .cls task⟩ (entriesFor c name) token
  Act.ofExcept o.metrics

/-- **Runs a registered job** with tasks of a class. Job and configuration must be given. -/
def runRegistered (h : Host σ) (engine : Engine σ τ η) (task : TaskClass σ τ) (job : Option JobClass)
    (app : Given Application) (reader : ClassArg ReaderClass) (token : Option Token) :
    Act (Desk σ) Metrics.Summary := do
  match job, (← Act.read Desk.config).isSome with
  | none, _ => throw (.missing "scan_job")
  | _, false => throw (.missing "engine_config")
  | some c, true => runJob h engine task c app reader token

/-- **Runs a registered job** over rows. -/
def runScan (h : Host σ) (engine : Engine σ ScanTask.State η) (job : Option JobClass)
    (app : Given Application) (reader : ClassArg ReaderClass) (token : Option Token) :
    Act (Desk σ) Metrics.Summary :=
  runRegistered h engine (ScanTask.tasks h .row) job app reader token

/-- **Runs a registered job** over vertices. -/
def runVertexScan (h : Host σ) (engine : Engine σ ScanTask.State η) (job : Option JobClass)
    (app : Given Application) (reader : ClassArg ReaderClass) (token : Option Token) :
    Act (Desk σ) Metrics.Summary :=
  runRegistered h engine (ScanTask.tasks h .vertex) job app reader token

end ScanJobs.Job
