import ScanJobs.Counters

/-! # Metrics while a job runs

A job counts rows under the names of the standard metrics, and whatever else it wants under names of
its own. Both are counters, in groups that are kept for them.
-/

namespace ScanJobs.Metrics

/-- Rows that a job processed. -/
def success : String := "SUCCESS"

/-- Rows on which a job failed. -/
def failure : String := "FAILURE"

/-- The group of the standard metrics. -/
def standardGroup : String := "scanjob.standard"

/-- The group of a job's own metrics. -/
def customGroup : String := "scanjob.custom"

/-- The name is that of a standard metric. -/
def isStandard (name : String) : Bool :=
  name = success || name = failure

/-- What is meant to be the name of a standard metric, if it is. -/
def standardName (name : Value) : Except Failure String :=
  match name.text?.filter isStandard with
  | some n => .ok n
  | none => .error (.count (.unknownMetric name.plain))

/-- Adds to a standard metric. -/
def increment (name : String) (delta : Value) : Act Counters Unit :=
  if isStandard name then Counters.increment standardGroup name delta
  else Act.ofExcept (.error (.count (.unknownMetric name)))

/-- Adds to a metric of the job's own. -/
def incrementCustom (name : String) (delta : Value) : Act Counters Unit :=
  Counters.increment customGroup name delta

/-- The value of a standard metric. -/
def get (c : Counters) (name : String) : Int :=
  c.value standardGroup name

/-- The value of a metric of the job's own. -/
def getCustom (c : Counters) (name : String) : Int :=
  c.value customGroup name

end ScanJobs.Metrics
