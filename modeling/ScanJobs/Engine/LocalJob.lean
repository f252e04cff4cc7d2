import ScanJobs.Engine.Basic
import ScanJobs.Settings.Basic
import ScanJobs.Task.Run
import ScanJobs.Text.Quoted
import ScanJobs.Value.Order

/-! # Jobs of the local engine

A local job can be set up until it is submitted. Its splits are planned first; then it runs until all
its tasks have ended, and has succeeded if none of them failed. The tasks work with a copy of its
configuration; those in processes of their own cannot change the world of the job either. Its counters
are the sums over the tasks that did not fail.

A caller who no longer waits leaves the job running, with all its tasks. So does one whose workers cannot
be had, or to whose workers a task cannot be handed.
-/

namespace ScanJobs.Engine

/-- How far a job is. A job that has ended has counters, and one that failed says why. -/
inductive JobState where
  | define
  | running
  | succeeded (counters : Counters)
  | failed (counters : Counters) (failure : String)

namespace JobState

/-- The label of a state. -/
def label : JobState → String
  | .define => "DEFINE"
  | .running => "RUNNING"
  | .succeeded _ => "SUCCEEDED"
  | .failed .. => "FAILED"

/-- The counters of a job in this state. -/
def counters : JobState → Counters
  | .define | .running => Counters.empty
  | .succeeded c | .failed c _ => c

/-- Why the job failed, if it did. -/
def failure? : JobState → Option String
  | .failed _ f => some f
  | _ => none

end JobState

/-- The workers of a job: threads or processes, and how many of them at most. -/
structure Crew where
  pool : Pool
  size : Value

/-- One less than the largest number that a queue of processes takes. -/
def Crew.limit : Int := 2147483646

/-- Whether the workers can be had. Those of threads are started one by one, those of processes share a
queue, which is made for a number of them. -/
def Crew.opening (c : Crew) : Except Failure Unit :=
  match c.pool with
  | .thread => .ok ()
  | .process =>
    match c.size.integer? with
    | some n => if n ≤ limit then .ok () else .error (.engine .tooManyProcesses)
    | none => .error (.engine (.uncountedProcesses c.size.typeName))

/-- A job of the local engine. -/
structure LocalJob (σ τ : Type) where
  id : String
  config : Given Config.Flat
  crew : Crew
  name : Value
  task : Option (TaskClass σ τ)
  reader : Option ReaderClass
  outputs : Table Slot OutputClass
  reduceTasks : Value
  state : JobState

namespace LocalJob

variable {σ τ : Type}

/-- How every id begins. -/
def idStart : List Char := "job_local_".toList

/-- The id of the job with this number: the number, in twelve hexadecimal digits. -/
def idOf (number : Nat) : String :=
  String.ofList (idStart ++ Text.hexDigits 12 number)

/-- The digits of ids. -/
def isIdDigit (c : Char) : Bool :=
  c.isDigit || ('a' ≤ c && c ≤ 'f')

/-- The text has the form of an id. -/
def isId (cs : List Char) : Bool :=
  idStart.isPrefixOf cs && cs.length = 22 && (cs.drop 10).all isIdDigit

/-- A new job. It is named by its id at first and asks for one reduce task. -/
def create (crew : Crew) (config : Given Config.Flat) (id : String) : LocalJob σ τ where
  id
  config
  crew
  name := .text id
  task := none
  reader := none
  outputs := Table.empty
  reduceTasks := .int 1
  state := .define

/-! ## Settings -/

/-- The job was not submitted yet. -/
def checkDefine (j : LocalJob σ τ) : Except Failure Unit :=
  match j.state with
  | .define => .ok ()
  | s => .error (.engine (.notDefining j.id s.label))

/-- The outputs with a slot set, or cleared. -/
def setOutput (outputs : Table Slot OutputClass) (slot : Slot) :
    Option OutputClass → Table Slot OutputClass
  | some c => outputs.insert slot c
  | none => outputs.erase slot

/-- A number of reduce tasks, which must not be below zero. -/
def checkReduceTasks (count : Value) : Except Failure Unit := do
  match Value.compare .below count (.int 0) with
  | .ok true => .error (.engine .negativeReduceCount)
  | .ok false => .ok ()
  | .error f => .error (.config (.incomparable f))

/-- **Changes a setting** of a job that was not submitted yet. -/
def assign (j : LocalJob σ τ) (s : Setting σ τ) : Except Failure (LocalJob σ τ) := do
  j.checkDefine
  match s with
  | .name v => return { j with name := v }
  | .output slot c => return { j with outputs := setOutput j.outputs slot c }
  | .reduceTasks n =>
    checkReduceTasks n
    return { j with reduceTasks := n }
  | .task c => return { j with task := c.unchecked TaskClass.failing }
  | .reader c => return { j with reader := c.unchecked ReaderClass.failing }

/-! ## Submission -/

/-- What a submitted job runs: its classes, and the splits. -/
structure Plan (σ τ : Type) where
  task : TaskClass σ τ
  reader : ReaderClass
  splits : List Value

/-- Hands the task of a split to a worker. Another process gets copies of the classes and the split. -/
def Plan.handOver (p : Plan σ τ) (pool : Pool) (split : Value) : Except Failure Unit :=
  match pool with
  | .thread => .ok ()
  | .process => do
    p.task.handing
    p.reader.handing split

/-- The splits that a reader of the class plans. -/
def splitsOf (reader : ReaderClass) (config : Given Config.Flat) : Except Failure (List Value) := do
  (← reader.create config).splits

/-- **Plans a job.** -/
def plan (j : LocalJob σ τ) : Except Failure (Plan σ τ) := do
  j.checkDefine
  match j.task, j.reader with
  | some task, some reader =>
    if !Value.same j.reduceTasks (.int 0) then
      .error (if j.reduceTasks.isStorable then .engine (.reducing j.id j.reduceTasks.plain)
        else .config .tooLong)
    else match splitsOf reader j.config with
      | .ok splits => return ⟨task, reader, splits⟩
      | .error f =>
        .error (if f.isOrdinary then .engine (.unplanned j.id f.message) else f)
  | _, _ => .error (.engine (.incomplete j.id))

/-- How a task ended: with its counters, or with the report of its failure. -/
abbrev TaskResult := Except String Counters

/-- The report of a failed task. Where it failed in the program is left out. -/
def taskReport (f : Failure) : String :=
  f.report ++ "\n<traceback>"

/-- The result of a task, unless it stops the program. -/
def resultOf : Except Failure Counters → Except Failure TaskResult
  | .ok c => .ok (.ok c)
  | .error f => if f.isOrdinary then .ok (.error (taskReport f)) else .error f

/-- Takes the results of the tasks in the order of the splits. What could not be handed over has none. -/
def Plan.collect (p : Plan σ τ) (pool : Pool) (outcomes : List (Except Failure Counters)) :
    Except Failure (List TaskResult) :=
  (p.splits.zip outcomes).mapM fun o => do
    p.handOver pool o.1
    resultOf o.2

/-- Runs the tasks of all splits in turn. -/
def runTasks (p : Plan σ τ) (config : Config.Flat) : Act σ (List (Except Failure Counters)) :=
  p.splits.mapM fun s => Act.attempt (Task.run p.task p.reader config s)

/-- Acts in a pool: what processes do to the world is lost. So nothing is seen of a task that was not
handed over, whatever it would have done. -/
def inPool {α : Type} (pool : Pool) (a : Act σ α) : Act σ α :=
  match pool with
  | .thread => a
  | .process => Act.ofFun fun s => ((a.on s).1, s)

/-- The counters of the tasks that did not fail, added up. -/
def sumCounters (results : List TaskResult) : Counters :=
  results.foldl
    (fun c r => match r with
      | .ok d => ((Counters.merge d.toGroups).on c).2
      | .error _ => c)
    Counters.empty

/-- What the tasks that failed tell, by the number of the split. -/
def failures {ε : Type} (results : List (Except ε Counters)) : List (Nat × ε) :=
  results.zipIdx.filterMap fun r =>
    match r.1 with
    | .error f => some (r.2, f)
    | .ok _ => none

/-- One failed task in the failure of a job. -/
def failureLine (f : Nat × String) : String :=
  "Task " ++ toString f.1 ++ " failed: " ++ f.2

/-- **The state of a job whose tasks ended like this.** -/
def finalState (results : List TaskResult) : JobState :=
  let fs := failures results
  if fs.isEmpty then .succeeded (sumCounters results)
  else .failed (sumCounters results) ("\n".intercalate (fs.map failureLine))

/-- A job that runs in a world. -/
abbrev Running (σ τ α : Type) := Act (Stage σ (LocalJob σ τ)) α

/-- Changes the state of the job. -/
def setState (s : JobState) : Running σ τ Unit :=
  Stage.onJob (Act.change fun j => { j with state := s })

/-- Writes a line. -/
def log (text : String) : Running σ τ Unit :=
  Stage.onJournal (Journal.log .info text)

/-- Takes the results of the tasks; tells whether none failed. -/
def finish (id : String) (results : List TaskResult) : Running σ τ Bool := do
  setState (finalState results)
  let failed := (failures results).length
  if failed = 0 then
    log ("Job " ++ id ++ " completed successfully")
    return true
  else
    log ("Job " ++ id ++ " failed with " ++ toString failed ++ " failed tasks")
    return false

/-- Whether the caller is told to stop waiting. He looks while tasks are left. -/
def isInterrupted (token : Option Token) (splits : List Value) : Except Failure Bool :=
  if splits.isEmpty then .ok false else token.elim (.ok false) Token.requested

/-- **Submits a job** and waits for it; tells whether it succeeded. What was given as its configuration
must be one once the job runs. The tasks run on though the caller stops waiting. -/
def submit (token : Option Token) : Running σ τ Bool := do
  let j ← Act.read Stage.job
  let p ← Act.ofExcept j.plan
  setState .running
  log ("Running job " ++ j.id ++ " (" ++ j.name.plain ++ ") with " ++ toString p.splits.length ++
    " splits")
  let config ← Act.ofExcept (j.config.get "config_as_dict")
  Act.ofExcept j.crew.opening
  let outcomes ← Stage.onJournal (Journal.onWorld (inPool j.crew.pool (runTasks p config.copy)))
  if ← Act.ofExcept (isInterrupted token p.splits) then throw (.engine (.interrupted j.id))
  finish j.id (← Act.ofExcept (p.collect j.crew.pool outcomes))

/-- **Why the job failed**, if it did. -/
def failureText (j : LocalJob σ τ) : Except Failure String :=
  match j.state.failure? with
  | some f => .ok f
  | none => .error (.engine (.noFailure j.id j.state.label))

end LocalJob

end ScanJobs.Engine
