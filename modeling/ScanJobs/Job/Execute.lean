import ScanJobs.Job.Descriptor
import ScanJobs.Job.Outcome

/-! # Executing a job

A job is made on the engine, set up as its descriptor says, and submitted. What the engine answers is
classified: the job succeeded, or it failed and the engine is asked why. If the engine does not take
the job, there is no outcome but a failure.
-/

namespace ScanJobs.Job

open Engine

variable {σ τ η : Type}

/-- An event of a job. -/
def Descriptor.event (d : Descriptor σ τ) (phase : Phase) (details : List (String × Value)) :
    Event :=
  ⟨phase, d.name, details⟩

/-- The timeline of every job that was submitted. -/
def Descriptor.begun (d : Descriptor σ τ) : List Event :=
  [d.event .built [], d.event .running []]

/-- Writes a line. -/
def note (level : Level) (text : String) : Act (Stage σ η) Unit :=
  Stage.onJournal (Journal.log level text)

/-- Submits the job and waits for it. -/
def submitJob (engine : Engine σ τ η) (d : Descriptor σ τ) (token : Option Token) :
    Act (Stage σ η) Bool := do
  match ← Act.attempt (engine.submit token) with
  | .ok b => return b
  | .error f =>
    throw (if f.kind = .jobSubmission then .job (.notSubmitted d.name f.message f.jobId?) else f)

/-- The outcome of a job that succeeded. -/
def whenSucceeded (engine : Engine σ τ η) (d : Descriptor σ τ) : Act (Stage σ η) Outcome := do
  let m ← Act.ofExcept (Metrics.Summary.ofValue (← engine.counters))
  note .info ("Job " ++ d.name.plain ++ " succeeded")
  let details := [("counter_count", Value.int m.all.length)]
  return ⟨d.name, .succeeded m, d.begun ++ [d.event .succeeded details]⟩

/-- What the engine tells of a failed job: its id, and why it failed. -/
def readFailure (engine : Engine σ τ η) : Act (Stage σ η) (Value × Value) := do
  let id ← engine.jobId
  return (id, ← engine.failureText)

/-- The outcome of a failed job, by what the engine tells of it. -/
def failureOf (d : Descriptor σ τ) : Except Failure (Value × Value) → Outcome
  | .ok (id, failure) =>
    ⟨d.name, .failed id failure, d.begun ++ [d.event .failed [("job_id", id)]]⟩
  | .error f =>
    let details := [("status_error_type", Value.text f.kind.label),
      ("status_error_message", .text f.message)]
    ⟨d.name, .unreadable, d.begun ++ [d.event .failed details]⟩

/-- Notes that the engine does not tell why a job failed. -/
def noteUnreadable (d : Descriptor σ τ) : Except Failure (Value × Value) → Act (Stage σ η) Unit
  | .ok _ => pure ()
  | .error f =>
    if f.isOrdinary then
      note .warning ("Unable to read status of failed job " ++ d.name.plain ++ ": " ++ f.message)
    else throw f

/-- The outcome of a job that failed. -/
def whenFailed (engine : Engine σ τ η) (d : Descriptor σ τ) : Act (Stage σ η) Outcome := do
  let told ← Act.attempt (readFailure engine)
  noteUnreadable d told
  let o := failureOf d told
  note .error ("Job " ++ d.name.plain ++ " failed: " ++ o.message?.getD "")
  return o

/-- What is done with a job once it is made. -/
def carryOut (engine : Engine σ τ η) (d : Descriptor σ τ) (token : Option Token) :
    Act (Stage σ η) Outcome := do
  d.settings.forM engine.assign
  note .info ("Submitting job " ++ d.name.plain ++ " to engine " ++ engine.name.plain)
  if ← submitJob engine d token then whenSucceeded engine d else whenFailed engine d

/-- An act with a job, which is dropped afterwards. -/
def withJob {α : Type} (job : η) (a : Act (Stage σ η) α) : Act (Journal σ) α :=
  Act.ofFun fun j => let (r, s) := a.on ⟨j, job⟩; (r, s.journal)

/-- **Executes a job** on an engine with what is given as its configuration. Engine and job must be
given. -/
def execute (engine : Option (Engine σ τ η)) (descriptor : Option (Descriptor σ τ))
    (config : Given Config.Flat) (token : Option Token) : Act (Journal σ) Outcome := do
  match engine, descriptor with
  | none, _ => throw (.missing "engine")
  | _, none => throw (.missing "descriptor")
  | some e, some d =>
    let job ← e.create config
    withJob job (carryOut e d token)

end ScanJobs.Job
