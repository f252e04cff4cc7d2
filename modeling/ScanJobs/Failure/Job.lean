import ScanJobs.Failure.Kind
import ScanJobs.Value.Printer

/-! # Failures of scan jobs
-/

namespace ScanJobs

/-- Why a scan job cannot be found, set up or run. -/
inductive JobFault where
  /-- A factory that is none. -/
  | notCallable
  /-- A name that is bound to another factory. -/
  | nameTaken (name : String)
  /-- The module that should register a job cannot be imported. -/
  | notImported (module : String) (name : Value) (cause : String)
  /-- No factory is bound to the name. -/
  | unbound (name : Value)
  /-- The name is bound to another class than that of the job. -/
  | otherClass (name : String)
  | noModule (name : String)
  /-- Something that is no class, in the place of one. -/
  | notClass (role shown : String)
  /-- The configuration names no job under the key. -/
  | unnamed (key : String)
  | hasReducePhase
  | hasOutput
  | markerCreated
  | mapBeforeSetup
  /-- The engine does not take the job. -/
  | notSubmitted (name : Value) (cause : String) (id : Option Value)
  | failed (id failure : Value)
  | unreadable

namespace JobFault

/-- The kind of the failure. -/
def kind : JobFault → Failure.Kind
  | .notCallable | .nameTaken _ | .hasReducePhase | .hasOutput => .value
  | .notImported .. | .unbound _ | .otherClass _ => .classResolution
  | .noModule _ => .missingModule
  | .notClass .. | .unnamed _ => .binding
  | .markerCreated => .type
  | .mapBeforeSetup => .runtime
  | .notSubmitted .. | .failed .. | .unreadable => .execution

/-- The code of the failure in reports. -/
def code? : JobFault → Option String
  | .notImported .. | .unbound _ | .otherClass _ => some "JOB_CLASS_NOT_FOUND"
  | .notClass .. | .unnamed _ => some "JOB_BINDING_ERROR"
  | .notSubmitted .. => some "JOB_SUBMISSION_ERROR"
  | .failed .. => some "JOB_FAILED"
  | .unreadable => some "JOB_STATUS_UNREADABLE"
  | _ => none

/-- The name that should have led to a class. -/
def className? : JobFault → Option Value
  | .notImported _ name _ | .unbound name => some name
  | .otherClass name => some (.text name)
  | _ => none

/-- The engine's identifier of the job. -/
def jobId? : JobFault → Option Value
  | .notSubmitted _ _ id => id
  | .failed id _ => some id
  | _ => none

/-- That the engine does not tell why a job failed. -/
def unreadableMessage : String :=
  "Job failed (unable to read job status programmatically -- see engine logs for information)"

/-- That a job failed, with what the engine tells of it. -/
def failedMessage (id failure : Value) : String :=
  "Job " ++ id.plain ++ " terminated abnormally: " ++ failure.plain

/-- What is wrong. -/
def message : JobFault → String
  | .notCallable => "factory must be callable"
  | .nameTaken name => "scan job name " ++ name ++ " is already registered"
  | .notImported module name cause =>
    "Unable to import module " ++ module ++ " defining scan job " ++ name.plain ++ ": " ++ cause
  | .unbound name => "No scan job registered with name " ++ name.plain
  | .otherClass name => "Scan job name " ++ name ++ " resolves to a different class"
  | .noModule name => "No module named " ++ Text.quoted name
  | .notClass role shown => role ++ " must be a class, got " ++ shown
  | .unnamed key => "Engine configuration does not name a scan job under " ++ key
  | .hasReducePhase => "scan jobs are map-only; reduce_task_count must be 0"
  | .hasOutput => "scan jobs produce no output; output classes must be NullType"
  | .markerCreated => "NullType is a marker type and cannot be instantiated"
  | .mapBeforeSetup => "task_setup must run before task_map"
  | .notSubmitted name cause _ => "Job " ++ name.plain ++ " could not be submitted: " ++ cause
  | .failed id failure => failedMessage id failure
  | .unreadable => unreadableMessage

end JobFault

end ScanJobs
