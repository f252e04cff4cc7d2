import ScanJobs.Job.Runner
import ScanJobs.Script.Configuring
import ScanJobs.Script.Counting

/-! # Steps that run jobs

Steps on local jobs, on descriptors and outcomes, on runners, and on tasks that are run by hand.
-/

namespace ScanJobs.Script.Session

open Config Engine

/-! ## Local jobs -/

/-- A local engine. -/
def localEngine? : Thing → Option Local
  | .engine (.localEngine e) => some e
  | _ => none

/-- Makes a local job. -/
def newJob (engine config : Thing) : Step (Thing × LocalJob World TaskState) := do
  let e ← use localEngine? "engine_create_job" engine
  let c ← Act.read (·.givenFlat config)
  let j ← Act.ofExcept (e.newJob c (← onWorld World.newId))
  let entry : LocalEntry := ⟨j, config, .value .none⟩
  Act.ofFun fun s => (.ok (.job s.jobs.size, j), { s with jobs := s.jobs.push entry })

/-- A local job, with its number. -/
def entry (part : String) (t : Thing) : Step (Nat × LocalEntry) := do
  let number ← use Thing.job? part t
  match (← Act.read Session.jobs)[number]? with
  | some e => return (number, e)
  | none => throw (t.lacking part)

/-- The local job that a thing is. -/
def job (part : String) (t : Thing) : Step (LocalJob World TaskState) := do
  return (← entry part t).2.job

/-- The setting of this name, with a thing for its value. -/
def setting? (s : Session) (name : String) (t : Thing) : Option (Setting World TaskState) :=
  match name with
  | "name" => t.value?.map .name
  | "reduce_task_count" => t.value?.map .reduceTasks
  | "worker_task_class" => some (.task (s.taskArg t))
  | "input_reader_class" => some (.reader (s.readerArg t))
  | name =>
    (ScanJobs.Job.Descriptor.slots.find? fun slot => slot.name ++ "_class" = name).map fun slot =>
      .output slot (t.output? s.scene)

/-- Changes a setting of a local job. -/
def assign (t : Thing) (name : String) (value : Thing) : Step Unit := do
  let part := "job_set_" ++ name
  let (number, e) ← entry part t
  match (← Act.read id).setting? name value with
  | none => throw (t.lacking part)
  | some setting =>
    let j ← Act.ofExcept (e.job.assign setting)
    let task := if name = "worker_task_class" then value else e.task
    Act.change fun s => { s with jobs := s.jobs.setIfInBounds number { e with job := j, task } }

/-- The job as it is submitted: with its configuration and its task as they are then. -/
def submitted (s : Session) (e : LocalEntry) : LocalJob World TaskState :=
  { e.job with
    config := s.givenFlat e.config
    task := (s.taskArg e.task).unchecked TaskClass.failing }

/-- **Submits a local job.** -/
def submit (t token : Thing) : Step (Logged Bool) := do
  let (number, e) ← entry "job_submit_and_wait" t
  let token ← Session.token token
  Act.ofFun fun s =>
    let (r, stage) := (LocalJob.submit token).on ⟨Journal.start s.world, s.submitted e⟩
    let jobs := s.jobs.setIfInBounds number { e with job := stage.job }
    (.ok ⟨r, stage.journal.lines⟩, { s with world := stage.journal.world, jobs })

/-- Why a job of an engine failed. -/
def failureText (engine job : Thing) : Step Value := do
  match ← use Thing.engine? "engine_job_failure_string" engine, job.job? with
  | .scripted number s, _ =>
    onWorld (World.record number .failureText)
    Act.ofExcept (answer s.failureError s.failure)
  | .localEngine _, some _ =>
    return .text (← Act.ofExcept (← Session.job "job_state" job).failureText)
  | .localEngine _, none => throw (.engine (.foreign ((← Act.read id).display job)))

/-- What a scripted engine was asked. -/
def calls (engine : Thing) : Step (List Call) := do
  match engine with
  | .engine (.scripted number _) => Act.read fun s => s.world.calls.getD number []
  | t => throw (t.lacking "calls")

/-! ## Descriptors -/

/-- What a job is made from. -/
abbrev Descriptor := ScanJobs.Job.Descriptor World TaskState

/-- Builds a descriptor. -/
def build (config reader : Thing) (name : Value) (task : Thing) : Step (Thing × Descriptor) := do
  let s ← Act.read id
  let d ← Act.ofExcept (ScanJobs.Job.Descriptor.build (s.givenFlat config) (s.readerArg reader) name
    (s.taskArg task))
  return (.descriptor d config task reader, d)

/-- A class to put out; where none is given, the marker is meant. -/
def outputOf (s : Session) (t : Option Thing) : Option OutputClass :=
  t.elim (some .marker) (Thing.output? s.scene)

/-- Makes a descriptor from its parts, of which only the reduce tasks and outputs are checked. -/
def assemble (config reader : Thing) (name : Value) (task : Thing) (reduce : Value)
    (outputs : List (Option Thing)) : Step (Thing × Descriptor) := do
  let s ← Act.read id
  Act.ofExcept (ScanJobs.Job.Descriptor.check reduce (outputs.map s.outputOf))
  let d : Descriptor := ⟨name, s.taskArg task, s.readerArg reader, reduce⟩
  return (.descriptor d config task reader, d)

/-- The name in lists of jobs of a new object with tasks of a class. -/
def listName (task job : Thing) : Step String := do
  let c ← Act.ofExcept ((← Act.read id).newObjectIfAny job)
  let name ← use (fun
    | .cls c => some c.name
    | _ => none) "__name__" task
  Act.read fun s => ScanJobs.Job.Descriptor.listName name
    ((c.map fun c => (s.behaviour c).label).getD Value.none.plain)

/-! ## Outcomes -/

/-- The thing has the name of a job: it is a descriptor, an outcome or a local job. -/
def isNamed : Thing → Bool
  | .descriptor .. | .outcome _ | .job _ => true
  | _ => false

/-- The descriptor that a thing is, with its task as it is now, and what is meant to be its
configuration. -/
def descriptor (t : Thing) : Step (Descriptor × Given Flat) := do
  match t with
  | .descriptor d config task _ =>
    Act.read fun s => ({ d with task := s.taskArg task }, s.givenFlat config)
  | t => throw (t.lacking "engine_configuration")

/-- **Executes a job** on an engine. -/
def execute (engine desc token : Thing) : Step (Logged ScanJobs.Job.Outcome) := do
  match engine.isSome, desc.isSome with
  | false, _ => throw (.missing "engine")
  | true, false => throw (.missing "descriptor")
  | true, true =>
    if !isNamed desc then throw (desc.lacking "job_name")
    let e ← use Thing.engine? "engine_create_job" engine
    let (d, c) ← descriptor desc
    let token ← Session.token token
    logged (e.use fun p => ScanJobs.Job.execute (some p) (some d) c token)

/-- An outcome of a kind, with the arguments that are given. -/
def newOutcome (kind : String) (name : Value) (given : List (String × Thing)) :
    Except Failure ScanJobs.Job.Outcome := do
  ScanJobs.Job.Outcome.checkArguments kind (given.map Prod.fst)
  let argument (name : String) : Thing := (given.lookup name).getD (.value .none)
  let value (name : String) : Value := (argument name).value?.getD .none
  let result : ScanJobs.Job.Result ← match kind with
    | "JobSucceeded" => (metrics "standard" (argument "metrics")).map .succeeded
    | "JobFailed" => .ok (.failed (value "job_id") (value "failure_text"))
    | _ => .ok .unreadable
  return ⟨name, result, []⟩

/-- The metrics of an outcome, or its failure. -/
def metricsOf (t : Thing) : Except Failure Metrics.Summary := do
  (← t.use Thing.outcome? "outcome_message").metrics

/-! ## Runners -/

/-- A runner on an engine, which must be given, with its name. -/
def newRunner (engine : Thing) : Except Failure (Thing × Value) :=
  if engine.isSome then
    (engine.use Thing.engine? "engine_name").map fun e => (.runner e, e.name)
  else .error (.missing "engine")

/-- What a runner is asked for: to run a registered job, or a job with tasks of any class, whose
outcome may be wanted even if it failed. -/
inductive Errand where
  | registered (p : Presentation) (job : Thing)
  | tasks (outcome : Bool) (root : Thing) (name : Value) (task : Thing)

/-- The part of a runner that does it. -/
def Errand.part : Errand → String
  | .registered .row _ => "runner_run_scan_job"
  | .registered .vertex _ => "runner_run_vertex_scan_job"
  | .tasks false .. => "runner_run_job"
  | .tasks true .. => "runner_execute_job"

/-- What a runner tells. -/
inductive Report where
  | metrics (m : Metrics.Summary)
  | outcome (o : ScanJobs.Job.Outcome)

/-- What a runner is to do. The object of a job is made once it is known that there is a runner. -/
def errand (s : Session) (runner app reader token : Thing) (e : Errand) :
    Except Failure (Act (ScanJobs.Job.Desk World) Report) := do
  let p ← runner.use Thing.runner? e.part
  let app := app.given Thing.application?
  let reader := s.readerArg reader
  let token := s.tokenOf token
  match e with
  | .registered .row job =>
    let c ← s.newObjectIfAny job
    return p.use fun p =>
      .metrics <$> ScanJobs.Job.runScan (s.host mainRegistry) p c app reader token
  | .registered .vertex job =>
    let c ← s.newObjectIfAny job
    return p.use fun p =>
      .metrics <$> ScanJobs.Job.runVertexScan (s.host mainRegistry) p c app reader token
  | .tasks outcome root name task =>
    let q : ScanJobs.Job.Request World TaskState :=
      ⟨app, s.givenNode root, reader, name, s.taskArg task⟩
    if outcome then return p.use fun p => .outcome <$> ScanJobs.Job.executeRequest p q token
    else return p.use fun p => .metrics <$> ScanJobs.Job.runRequest p q token

/-- **Sends a runner on an errand**, and tells what came of it with the configuration afterwards. -/
def run (runner app config reader token : Thing) (e : Errand) :
    Step (Logged (Except Failure Report × Option Flat)) :=
  Act.ofFun fun s =>
    let act := (Act.ofExcept (s.errand runner app reader token e)) >>= id
    let (r, desk) := act.on ⟨s.givenFlat config, Journal.start s.world⟩
    let s := { s with world := desk.journal.world }
    let lines := desk.journal.lines
    match desk.config with
    | .this c =>
      let flats := s.flats.setIfInBounds (flatNumber config) c
      (.ok ⟨.ok (r, some c), lines⟩, { s with flats })
    | .nothing => (.ok ⟨.ok (r, none), lines⟩, s)
    | .other t => (.ok ⟨.error (t.failure "config_as_dict"), lines⟩, s)

/-! ## Tasks run by hand -/

/-- A new scan task. -/
def newWorker (p : Presentation) : Step Thing :=
  Act.ofFun fun s =>
    (.ok (.worker s.workers.size p), { s with workers := s.workers.push ⟨.fresh, 0⟩ })

/-- The failure of one who takes a thing for a task and asks it for `part`, whose last argument has
this name. A class takes the first argument for the task and so lacks the last. -/
def noWorker (t : Thing) (part last : String) : Failure :=
  match t with
  | .cls ⟨_, .scanTask _⟩ =>
    .shape (.missingArguments (ScanTask.className .row ++ "." ++ part) [last])
  | t => t.lacking part

/-- An act of a task. With counters of its own it starts as one that has none yet. -/
def work (number : Nat) (counters : Option Nat) (config : Flat)
    (act : Act (Frame World TaskState) Unit) : Step Unit :=
  Act.ofFun fun s =>
    let w := s.workers.getD number ⟨.fresh, 0⟩
    let n := counters.getD w.counters
    let counting := if counters.isSome then .notYet else w.state.counting
    let (r, f) := act.on ⟨s.world, config, { w.state with counting }, s.countersAt n⟩
    let after : Worker := match f.task.counting with
      | .notYet => { w with state := { f.task with counting := w.state.counting } }
      | _ => ⟨f.task, n⟩
    (r, { s with
      world := f.world
      workers := s.workers.setIfInBounds number after
      counters := s.counters.setIfInBounds n f.counters })

/-- The number of a task and how it shows rows. -/
def worker (part last : String) (t : Thing) : Step (Nat × Presentation) := do
  match t with
  | .worker number p => return (number, p)
  | t => throw (noWorker t part last)

/-- Sets up a task. Without counters it goes no further than to make the job, and anything in their
place refuses to count. -/
def workerSetup (t config counters : Thing) : Step Unit := do
  let (number, _) ← worker "task_setup" "counters" t
  let s ← Act.read id
  let c ← Act.ofExcept ((s.givenFlat config).get "config_get")
  let h := s.host mainRegistry
  match counters with
  | .counters n => work number (some n) c (ScanTask.setup h none)
  | .value .none => work number none c (ScanTask.setupUncounted h)
  | other =>
    work number (some s.counters.size) c (ScanTask.setup h (other.lacking "counter_increment"))

/-- Maps a row. -/
def workerMap (t : Thing) (row : Row) : Step Unit := do
  let (number, p) ← worker "task_map" "entries" t
  work number none Flat.empty (((← Act.read id).scan p).map row)

/-- Ends a task. -/
def workerCleanup (t : Thing) : Step Unit := do
  let (number, p) ← worker "task_cleanup" "self" t
  work number none Flat.empty ((← Act.read id).scan p).cleanup

end ScanJobs.Script.Session
