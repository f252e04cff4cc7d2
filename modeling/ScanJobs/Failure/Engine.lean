import ScanJobs.Failure.Kind

/-! # Failures of execution engines
-/

namespace ScanJobs

/-- Why an engine or one of its jobs refuses. -/
inductive EngineFault where
  | unknownPool (name : String)
  | tooFewWorkers
  | pollNotPositive
  | unknownStart (name : String)
  | negativeReduceCount
  /-- More processes than can be counted. -/
  | tooManyProcesses
  /-- A number of processes that is none. -/
  | uncountedProcesses (typeName : String)
  /-- A job that was submitted already. -/
  | notDefining (id state : String)
  /-- A job without a task class or a reader class. -/
  | incomplete (id : String)
  /-- A job with reduce tasks. -/
  | reducing (id count : String)
  /-- The splits of a job could not be planned. -/
  | unplanned (id cause : String)
  /-- The wait for a job was cancelled. -/
  | interrupted (id : String)
  /-- A job of another engine. -/
  | foreign (shown : String)
  /-- A job that has not failed. -/
  | noFailure (id state : String)
deriving DecidableEq

namespace EngineFault

/-- The kind of the failure. -/
def kind : EngineFault → Failure.Kind
  | .unknownPool _ | .tooFewWorkers | .pollNotPositive | .unknownStart _ | .negativeReduceCount =>
    .value
  | .tooManyProcesses => .overflow
  | .uncountedProcesses _ => .type
  | .notDefining .. => .runtime
  | .incomplete _ | .reducing .. | .unplanned .. => .jobSubmission
  | .interrupted _ => .jobInterrupted
  | .foreign _ | .noFailure .. => .jobStatus

/-- The job at fault. -/
def jobId? : EngineFault → Option String
  | .incomplete id | .reducing id _ | .unplanned id _ | .interrupted id | .noFailure id _ => some id
  | _ => none

/-- What is wrong. -/
def message : EngineFault → String
  | .unknownPool name => "unsupported executor_kind=" ++ name
  | .tooFewWorkers => "max_workers must be >= 1"
  | .pollNotPositive => "poll_interval_seconds must be > 0"
  | .unknownStart name => "unsupported start_method=" ++ name
  | .negativeReduceCount => "reduce_task_count must be >= 0"
  | .tooManyProcesses => "Python int too large to convert to C int"
  | .uncountedProcesses typeName =>
    "'" ++ typeName ++ "' object cannot be interpreted as an integer"
  | .notDefining id state => "Job " ++ id ++ " is in state " ++ state ++ ", not DEFINE"
  | .incomplete id => "Job " ++ id ++ " requires a worker task class and an input reader class"
  | .reducing id count =>
    "Local engine runs map-only jobs; job " ++ id ++ " requested reduce_task_count=" ++ count
  | .unplanned id cause => "Job " ++ id ++ " could not plan input splits: " ++ cause
  | .interrupted id => "Interrupted while waiting for job " ++ id
  | .foreign shown => "Job " ++ shown ++ " was not created by the local engine"
  | .noFailure id state =>
    "Job " ++ id ++ " is in state " ++ state ++ "; no failure information available"

end EngineFault

end ScanJobs
