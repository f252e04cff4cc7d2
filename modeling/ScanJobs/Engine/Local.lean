import ScanJobs.Engine.LocalJob
import ScanJobs.Value.Order

/-! # The local engine

The local engine runs the tasks of a job in threads or processes of one machine.
-/

namespace ScanJobs.Engine

/-- A local engine. -/
structure Local where
  pool : Pool
  maxWorkers : Value
  poll : Value
  start : Option StartMethod

namespace Local

/-- The pool of this name. -/
def poolOf (name : Value) : Except Failure Pool :=
  match name.text?.bind Pool.ofName? with
  | some pool => .ok pool
  | none => .error (.engine (.unknownPool name.plain))

/-- How processes are started, by name. -/
def startOf (name : Value) : Except Failure (Option StartMethod) :=
  match name with
  | .none => .ok none
  | v =>
    match v.text?.bind StartMethod.ofName? with
    | some m => .ok (some m)
    | none => .error (.engine (.unknownStart v.plain))

/-- At least one worker is needed. -/
def checkWorkers (count : Value) : Except Failure Unit := do
  match Value.compare .below count (.int 1) with
  | .ok true => .error (.engine .tooFewWorkers)
  | .ok false => .ok ()
  | .error f => .error (.config (.incomparable f))

/-- The time to wait is not positive: it is zero or below. What is no number has no order. -/
def checkPoll (poll : Value) : Except Failure Unit :=
  match poll.number? with
  | some x =>
    if x.le (Number.ofInt 0) then .error (.engine .pollNotPositive) else .ok ()
  | none => .error (.config (.incomparable ⟨"<=", poll.typeName, "int"⟩))

/-- **A local engine** with these settings, if they are in range. They are looked at in turn. -/
def create (pool maxWorkers poll start : Value) : Except Failure Local := do
  let pool ← poolOf pool
  checkWorkers maxWorkers
  checkPoll poll
  return ⟨pool, maxWorkers, poll, ← startOf start⟩

/-- The name of the engine. -/
def name (e : Local) : String :=
  "local[" ++ e.pool.name ++ "x" ++ e.maxWorkers.plain ++ "]"

/-- The workers of each job. -/
def crew (e : Local) : Crew :=
  ⟨e.pool, e.maxWorkers⟩

/-- **A new job** for a configuration, which must be given. -/
def newJob {σ τ : Type} (e : Local) (config : Given Config.Flat) (id : String) :
    Except Failure (LocalJob σ τ) :=
  if config.isSome then .ok (.create e.crew config id) else .error (.missing "engine_config")

/-- **What this engine does for jobs**; `newId` gives the id of the next one. -/
def toEngine {σ τ : Type} (e : Local) (newId : Act σ String) : Engine σ τ (LocalJob σ τ) where
  name := .text e.name
  create config := do
    let id ← Journal.onWorld newId
    Act.ofExcept (e.newJob config id)
  assign s := Stage.onJob (Act.tryChange fun j => j.assign s)
  submit := LocalJob.submit
  jobId := Act.read fun s => .text s.job.id
  counters := Act.read fun s => s.job.state.counters.toValue
  failureText := do return .text (← Act.ofExcept (← Act.read Stage.job).failureText)

end Local

end ScanJobs.Engine
