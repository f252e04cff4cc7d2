import ScanJobs.Metrics.Standard

/-! # Metrics of a finished job

An engine reports all counters of a job. They are sorted into the standard metrics, the job's own and
those of the engine, which are named by group and name. Most names are texts, but those that an engine
reports need not be.
-/

namespace ScanJobs.Metrics

/-- The metrics of a job, each part with the entries of a map. -/
structure Summary where
  standard : List (Value × Value)
  custom : List (Value × Value)
  engine : List (Value × Value)

namespace Summary

/-- No metrics. -/
def empty : Summary := ⟨[], [], []⟩

/-- The name of a counter with its group. -/
def fullName (group name : String) : Value :=
  .text (group ++ "." ++ name)

/-- Adds a counter. -/
def addCounter (m : Summary) (group name : Value) (n : Int) : Summary :=
  if group.same (.text standardGroup) then
    { m with standard := Value.putEntry name (.int n) m.standard }
  else if group.same (.text customGroup) then
    { m with custom := Value.putEntry name (.int n) m.custom }
  else { m with engine := Value.putEntry (fullName group.plain name.plain) (.int n) m.engine }

/-- Adds the counters of a group. -/
def addGroup (m : Summary) (group : Value) (counters : List (Value × Value)) :
    Except Failure Summary :=
  counters.foldlM (fun m c => return m.addCounter group c.1 (← Counters.integerOf c.2)) m

/-- **The metrics of the counters that an engine reports**, which are a map of groups to maps of names
to numbers. They are looked at in turn. -/
def ofValue (v : Value) : Except Failure Summary := do
  (← v.entries).foldlM (fun m g => do m.addGroup g.1 (← g.2.entries)) empty

/-- A number of a part, zero if it is not there. -/
def valueIn (part : List (Value × Value)) (name : Value) : Except Failure Int := do
  Counters.integerOf ((Value.valueAt? (← name.asKey) part).getD (.int 0))

/-- The value of a standard metric. -/
def get (m : Summary) (name : Value) : Except Failure Int := do
  valueIn m.standard (.text (← standardName name))

/-- The value of a metric of the job's own. -/
def getCustom (m : Summary) (name : Value) : Except Failure Int :=
  valueIn m.custom name

/-- The entries of a group under full names. -/
def grouped (group : String) (part : List (Value × Value)) : List (Value × Value) :=
  part.map fun e => (fullName group e.1.plain, e.2)

/-- **All metrics by full name**, as the entries of a map. -/
def all (m : Summary) : List (Value × Value) :=
  (grouped standardGroup m.standard ++ grouped customGroup m.custom).foldl
    (fun kept e => Value.putEntry e.1 e.2 kept) m.engine

end Summary

end ScanJobs.Metrics
