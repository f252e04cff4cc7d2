import ScanJobs.Failure.Configuration
import ScanJobs.Failure.Counting
import ScanJobs.Failure.Engine
import ScanJobs.Failure.Job
import ScanJobs.Failure.Shape

/-! # Failures

A failure is either a fault that this library finds, or one that jobs, tasks, readers, engines and
modules raise on their own. Each has a kind, a message and some of four details.
-/

namespace ScanJobs

/-- A failure raised by a component. -/
structure Raised where
  kind : Failure.Kind
  /-- What is said of it. -/
  saying : Value
  /-- The module that was missing, for a failed import. -/
  missing : Value
  /-- The job it is about, for failures of engines. -/
  jobId? : Option Value

/-- A failure. -/
inductive Failure where
  /-- An argument that must be given was not. -/
  | missing (what : String)
  /-- A text that must not be blank is. -/
  | blank (what : String)
  | config (fault : ConfigFault)
  | count (fault : CountFault)
  | engine (fault : EngineFault)
  | job (fault : JobFault)
  | shape (fault : ShapeFault)
  | raised (failure : Raised)

namespace Failure

/-- The kind of the failure. -/
def kind : Failure → Kind
  | .missing _ | .blank _ => .value
  | .config f => f.kind
  | .count f => f.kind
  | .engine f => f.kind
  | .job f => f.kind
  | .shape f => f.kind
  | .raised f => f.kind

/-- The message of a raised failure: a missing key is shown with its type. -/
def raisedMessage (f : Raised) : String :=
  if f.kind = .key then f.saying.display else f.saying.plain

/-- What is wrong. -/
def message : Failure → String
  | .missing what => what ++ " must not be None"
  | .blank what => what ++ " must not be blank"
  | .config f => f.message
  | .count f => f.message
  | .engine f => f.message
  | .job f => f.message
  | .shape f => f.message
  | .raised f => raisedMessage f

/-- The key of a configuration that is at fault. -/
def configKey? : Failure → Option String
  | .config f => f.key?
  | _ => none

/-- The name of a class that could not be found. -/
def className? : Failure → Option Value
  | .job f => f.className?
  | _ => none

/-- The code of the failure in reports. -/
def code? : Failure → Option String
  | .job f => f.code?
  | .raised f => if f.kind = .binding then some "JOB_BINDING_ERROR" else none
  | _ => none

/-- The job that the failure is about. -/
def jobId? : Failure → Option Value
  | .engine f => f.jobId?.map .text
  | .job f => f.jobId?
  | .raised f => f.jobId?
  | _ => none

/-- The module that a failed import was missing. -/
def missingModule : Failure → Value
  | .job (.noModule name) => .text name
  | .raised f => f.missing
  | _ => .none

/-- The failure is one that a job may have. -/
def isOrdinary (f : Failure) : Bool :=
  f.kind.isOrdinary

/-- The failure with its kind, as in the report of a failed task. -/
def report (f : Failure) : String :=
  f.kind.label ++ ": " ++ f.message

end Failure

end ScanJobs
