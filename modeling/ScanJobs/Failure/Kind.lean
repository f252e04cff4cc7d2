/-! # Kinds of failures

The kinds by which callers tell failures apart, and the labels under which reports show them.
-/

namespace ScanJobs.Failure

/-- What sort of failure it is. -/
inductive Kind where
  | value
  | type
  | key
  | lookup
  | index
  | attribute
  | overflow
  | zeroDivision
  | runtime
  | system
  | connection
  | importing
  | missingModule
  /-- The user stops the program. -/
  | interrupt
  | configurationParse
  | configurationPairing
  | jobSubmission
  | jobStatus
  | jobInterrupted
  | classResolution
  | binding
  | execution
  | other (label : String)
deriving DecidableEq, Repr

namespace Kind

/-- The label of the kind in reports. -/
def label : Kind → String
  | .value => "ValueError"
  | .type => "TypeError"
  | .key => "KeyError"
  | .lookup => "LookupError"
  | .index => "IndexError"
  | .attribute => "AttributeError"
  | .overflow => "OverflowError"
  | .zeroDivision => "ZeroDivisionError"
  | .runtime => "RuntimeError"
  | .system => "OSError"
  | .connection => "ConnectionError"
  | .importing => "ImportError"
  | .missingModule => "ModuleNotFoundError"
  | .interrupt => "KeyboardInterrupt"
  | .configurationParse => "ConfigurationParseError"
  | .configurationPairing => "ConfigurationPairingError"
  | .jobSubmission => "EngineJobSubmissionError"
  | .jobStatus => "EngineJobStatusError"
  | .jobInterrupted => "EngineJobInterruptedError"
  | .classResolution => "JobClassResolutionError"
  | .binding => "JobBindingError"
  | .execution => "ScanJobExecutionError"
  | .other label => label

/-- The kinds that have a case of their own. -/
def named : List Kind :=
  [.value, .type, .key, .lookup, .index, .attribute, .overflow, .zeroDivision, .runtime,
    .system, .connection, .importing, .missingModule, .interrupt, .configurationParse,
    .configurationPairing, .jobSubmission, .jobStatus, .jobInterrupted, .classResolution, .binding,
    .execution]

/-- The kind with this label. -/
def ofLabel (label : String) : Kind :=
  (named.find? fun k => k.label = label).getD (.other label)

/-- A module could not be imported, for want of the module or for another reason. -/
def isImport : Kind → Bool
  | .importing | .missingModule => true
  | _ => false

/-- A failure that a job may have; the others stop the program that runs the job. -/
def isOrdinary : Kind → Bool
  | .interrupt => false
  | _ => true

end Kind

end ScanJobs.Failure
