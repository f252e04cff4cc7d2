import ScanJobs.Metrics.Summary

/-! # Outcomes

A job that an engine took has succeeded, has failed with a text from the engine, or has failed
without one. Every outcome has a timeline of the states of the job.
-/

namespace ScanJobs.Job

/-- The states on a timeline. -/
inductive Phase where
  | built
  | running
  | succeeded
  | failed
deriving DecidableEq, Repr

/-- The label of a state. -/
def Phase.label : Phase → String
  | .built => "built"
  | .running => "running"
  | .succeeded => "succeeded"
  | .failed => "failed"

/-- A job came to a state. -/
structure Event where
  phase : Phase
  jobName : Value
  details : List (String × Value)

/-- What became of a job. -/
inductive Result where
  | succeeded (metrics : Metrics.Summary)
  | failed (id failure : Value)
  | unreadable

/-- The label of a result. -/
def Result.label : Result → String
  | .succeeded _ => "JobSucceeded"
  | .failed .. => "JobFailed"
  | .unreadable => "JobFailedUnreadable"

/-- **The outcome of a job.** -/
structure Outcome where
  jobName : Value
  result : Result
  timeline : List Event

namespace Outcome

/-- The arguments of each kind of outcome, besides the name of the job. -/
def arguments (kind : String) : List String :=
  match kind with
  | "JobSucceeded" => ["metrics"]
  | "JobFailed" => ["job_id", "failure_text"]
  | _ => []

/-- Just the arguments of a kind of outcome are given. -/
def checkArguments (kind : String) (given : List String) : Except Failure Unit :=
  let function := kind ++ ".__init__"
  let missing := (arguments kind).filter fun a => a ∉ given
  match given.find? fun a => a ∉ arguments kind with
  | some a => .error (.shape (.unexpectedArgument function a))
  | none => if missing.isEmpty then .ok () else .error (.shape (.missingArguments function missing))

/-- What is told of a failed job. -/
def message? (o : Outcome) : Option String :=
  match o.result with
  | .succeeded _ => none
  | .failed id failure => some (JobFault.failedMessage id failure)
  | .unreadable => some JobFault.unreadableMessage

/-- **The metrics of a job**, or the failure that it ended with. -/
def metrics (o : Outcome) : Except Failure Metrics.Summary :=
  match o.result with
  | .succeeded m => .ok m
  | .failed id failure => .error (.job (.failed id failure))
  | .unreadable => .error (.job .unreadable)

end Outcome

end ScanJobs.Job
