import ScanJobs.Script.Session

/-! # Steps on counters, metrics and tokens
-/

namespace ScanJobs.Script.Session

/-! ## Counters -/

/-- New counters. -/
def newCounters : Step Thing :=
  Act.ofFun fun s =>
    (.ok (.counters s.counters.size), { s with counters := s.counters.push Counters.empty })

/-- The counters that a thing is. -/
def countersOf (part : String) (t : Thing) : Step Counters := do
  let number ← use Thing.counters? part t
  Act.read (·.countersAt number)

/-- An act on the counters that a thing is. -/
def counting (part : String) (t : Thing) (a : Act Counters Unit) : Step Unit := do
  let number ← use Thing.counters? part t
  Act.zoom (·.countersAt number)
    (fun c s => { s with counters := s.counters.setIfInBounds number c }) a

/-- The value of a counter. -/
def count (t : Thing) (group name : Value) : Step Int := do
  let c ← countersOf "counter_value" t
  Act.ofExcept (c.valueAt group name)

/-- Adds to a counter, and tells its value. -/
def increment (t : Thing) (group name delta : Value) : Step Int := do
  counting "counter_increment" t (Counters.incrementAt group name delta)
  count t group name

/-- Adds all counters that a value describes, or those of another thing, and tells all there are. -/
def mergeGroups (t : Thing) (groups : Value ⊕ Thing) : Step Counters := do
  let _ ← countersOf "counter_merge" t
  let v ← match groups with
    | .inl v => pure v
    | .inr other => Counters.toValue <$> countersOf "counter_groups" other
  counting "counter_merge" t (Counters.mergeValue v)
  countersOf "counter_groups" t

/-! ## Metrics -/

/-- Metrics that are kept in counters, which must be given. -/
def newTally (counters : Thing) : Except Failure Thing :=
  if counters.isSome then .ok (.tally counters) else .error (.missing "counters")

/-- Adds to a standard metric. -/
def tallyStandard (t : Thing) (name delta : Value) : Step Unit := do
  let c ← use Thing.tally? "metrics_increment" t
  let name ← Act.ofExcept (Metrics.standardName name)
  counting "counter_increment" c (Metrics.increment name delta)

/-- Adds to a metric of the job's own. -/
def tallyCustom (t : Thing) (name delta : Value) : Step Unit := do
  let c ← use Thing.tally? "metrics_increment_custom" t
  counting "counter_increment" c (Counters.incrementAt (.text Metrics.customGroup) name delta)

/-- The metrics of these three parts, which must be maps. -/
def newMetrics (standard custom engine : Value) : Except Failure Metrics.Summary := do
  return ⟨← standard.entries, ← custom.entries, ← engine.entries⟩

/-- The metrics that a thing is. -/
def metrics (part : String) (t : Thing) : Except Failure Metrics.Summary :=
  t.use Thing.metrics? part

/-- The value of a standard metric. While a job runs, every name has one. -/
def metric (t : Thing) (name : Value) : Step Int := do
  match t with
  | .tally c => count c (.text Metrics.standardGroup) name
  | t => Act.ofExcept ((← Act.ofExcept (metrics "metrics_get" t)).get name)

/-- The value of a metric of the job's own. -/
def customMetric (t : Thing) (name : Value) : Step Int := do
  match t with
  | .tally c => count c (.text Metrics.customGroup) name
  | t => Act.ofExcept ((← Act.ofExcept (metrics "metrics_get_custom" t)).getCustom name)

/-! ## Tokens -/

/-- A new token. -/
def newToken : Step Thing :=
  Act.ofFun fun s => (.ok (.token s.tokens.size), { s with tokens := s.tokens.push false })

/-- Tells those who wait with a token to stop. -/
def request (t : Thing) : Step Unit := do
  let number ← use Thing.token? "cancellation_request" t
  Act.change fun s => { s with tokens := s.tokens.setIfInBounds number true }

/-- Whether a token tells to stop. -/
def requested (s : Session) (t : Thing) : Except Failure Bool :=
  (t.use Thing.token? "cancellation_is_requested").map fun number => s.tokens.getD number false

/-- The thing in the place of a token, if it is there. -/
def tokenOf (s : Session) (t : Thing) : Option Engine.Token :=
  if t.isSome then some ⟨s.requested t, []⟩ else none

/-- The thing in the place of a token, if it is there. -/
def token (t : Thing) : Step (Option Engine.Token) :=
  Act.read (·.tokenOf t)

end ScanJobs.Script.Session
