import ScanJobs.Config.View
import ScanJobs.Job.Behaviour
import ScanJobs.Metrics.Standard
import ScanJobs.Script.Naming
import ScanJobs.Task.Basic

/-! # Scripted jobs, tasks and readers

A scripted job or task does a list of actions at each of its occasions. Most actions count something;
one fails. They stop at the first failure. A scripted reader serves rows that are written down. With
them one can try engines and runners without a store.
-/

namespace ScanJobs.Script

open Config Schema

/-- For which rows an action is. -/
structure Condition where
  key : Option Value
  column : Option (Value × Value)

/-- The condition holds on a row. -/
def Condition.holds (c : Condition) (r : Row) : Bool :=
  c.key.all (fun k => Value.same r.key k) &&
    c.column.all fun e => (r.value? e.1).any fun v => Value.same v e.2

/-- What an action does. Names may be values of any sort; what is wrong with them shows when they are
used. -/
inductive Deed where
  /-- Adds to a counter of a task. -/
  | count (group name delta : Value)
  /-- Adds to a standard metric of a job. -/
  | metric (name delta : Value)
  /-- Adds to a counter of the actor's own. -/
  | custom (name delta : Value)
  /-- Counts the values of a column. -/
  | column (column before : Value)
  /-- Keeps the value of an option, or of what is meant to be one. -/
  | keep (option : Given Node) (names : List Value)
  /-- Counts the rows whose key is not below the kept value. -/
  | atLeast (name : Value)
  /-- Counts the value of an option, or of what is meant to be one. -/
  | tell (option : Given Node) (names : List Value)
  /-- Counts the keys of the configuration. -/
  | tellKeys
  /-- Counts the text under a key of the engine's configuration. -/
  | tellEntry (key : Value)
  | fail (failure : Raised)

/-- An action. -/
structure Action where
  condition : Condition
  deed : Deed

/-- A key that is not there. -/
def missingKey (key : Value) : Failure :=
  .raised ⟨.key, key, .none, none⟩

/-- There is no configuration to ask. -/
def noConfiguration : Failure :=
  Value.none.lacking "config_get"

/-- The element whose value is asked for. -/
def placed : Given Node → Except Failure Node
  | .nothing => .error (.config (.path .nothing))
  | g => g.get "namespace"

/-- The row on the occasions on which there is none. -/
def noRow : Row := ⟨.none, []⟩

/-- Does the actions whose conditions hold on a row. -/
def perform {σ : Type} (deed : Deed → Act σ Unit) (actions : List Action) (r : Row) : Act σ Unit :=
  actions.forM fun a => if a.condition.holds r then deed a.deed else pure ()

/-- The name under which the value of a column is counted. -/
def columnName (column before : Value) (r : Row) : Except Failure Value :=
  match r.value? column, before.text? with
  | some v, some b => .ok (.text (b ++ v.plain))
  | some _, none => .error (.shape (.notJoinable before.typeName))
  | none, _ => .error (missingKey column)

/-! ## Jobs -/

namespace Job

open ScanJobs.Job (Bench Behaviour)

/-- Adds to a counter of the job's own. -/
def count (name delta : Value) : Act Bench Unit :=
  Bench.counting (Counters.incrementAt (.text Metrics.customGroup) name delta)

/-- Counts one under a text. -/
def countOne (name : String) : Act Bench Unit :=
  count (.text name) (.int 1)

/-- The value of an element under names of any sort. -/
def valueOf (app : Application) (n : Node) (names : List Value) : Except Failure Value := do
  app.getAt n (← textNames n.site.way names)

/-- How the value of an option is told. -/
def optionText (app : Application) (n : Node) (names : List Value) : Except Failure String := do
  match ← valueOf app n names, n.option? with
  | .none, _ => return "null"
  | v, some o => serialize o v
  | _, none => .error (.shape (.lacks n.site.typeName "option_serialize"))

/-- Counts the value of an option. -/
def tell (app : Option Application) (option : Given Node) (names : List Value) :
    Act Bench Unit := do
  match app with
  | none => countOne "read:none"
  | some app =>
    let n ← Act.ofExcept (placed option)
    let text ← Act.ofExcept (optionText app n names)
    countOne ("read:" ++ n.site.display ++ "=" ++ text)

/-- Keeps the value of an option. -/
def keep (app : Option Application) (option : Given Node) (names : List Value) :
    Act Bench Unit := do
  match app with
  | none => throw noConfiguration
  | some app =>
    let v ← Act.ofExcept (valueOf app (← Act.ofExcept (placed option)) names)
    Act.change fun b => { b with kept := some v }

/-- Counts a row whose key is not below the kept value. -/
def countAtLeast (name : Value) (r : Row) : Act Bench Unit := do
  match ← Act.read Bench.kept with
  | none => throw (missingKey (.text "threshold"))
  | some v =>
    match Value.compare .atLeast r.key v with
    | .ok true => count name (.int 1)
    | .ok false => pure ()
    | .error f => throw (.config (.incomparable f))

/-- What a job does, with its configuration and on a row. -/
def deed (app : Option Application) (r : Row) : Deed → Act Bench Unit
  | .metric name delta => do
    let name ← Act.ofExcept (Metrics.standardName name)
    Bench.counting (Metrics.increment name delta)
  | .custom name delta => count name delta
  | .column column before => do count (← Act.ofExcept (columnName column before r)) (.int 1)
  | .keep option names => keep app option names
  | .atLeast name => countAtLeast name r
  | .tell option names => tell app option names
  | .tellKeys =>
    match app with
    | none => countOne "cfg:<none>"
    | some app => app.keys.forM fun k => countOne ("cfg:" ++ k)
  | .fail f => throw (.raised f)
  | .count .. | .tellEntry _ => pure ()

end Job

/-- The actions of a job. One without actions for rows leaves them to its base class, which takes
them in one presentation only. -/
structure JobScript where
  label : String
  root : Given Site
  takes : Presentation
  createError : Option Raised
  start : List Action
  process : Option (List Action)
  finish : List Action

/-- Fails if there is a failure. -/
def failIf (f : Option Raised) : Except Failure Unit :=
  match f with
  | none => .ok ()
  | some f => .error (.raised f)

/-- A row is shown in the other presentation than the base class takes. -/
def misfit : Presentation → Failure
  | .row => .shape (.missingArguments "ScanJob.job_process" ["metrics"])
  | .vertex => .shape (.tooManyArguments "VertexScanJob.job_process" 3 3 4)

/-- What a job does on a row. -/
def JobScript.onRow (s : JobScript) (p : Presentation) (r : Row) :
    Act ScanJobs.Job.Bench Unit :=
  match s.process with
  | some actions => perform (Job.deed none r) actions r
  | none => if p = s.takes then pure () else throw (misfit s.takes)

/-- The job that does these actions. Its root stands in a schema. -/
def JobScript.behaviour (schema : Schema) (s : JobScript) : ScanJobs.Job.Behaviour where
  label := s.label
  root := s.root.bind fun site => Given.ofOption (schema.node? site)
  create := failIf s.createError
  start app := perform (Job.deed app noRow) s.start noRow
  process := s.onRow
  finish := perform (Job.deed none noRow) s.finish noRow
  foreign := none

/-- What the objects of a class do that are no jobs; `label` is such an object as text. -/
def foreignBehaviour (className label : String) (create : Except Failure Unit) :
    ScanJobs.Job.Behaviour where
  label
  root := .nothing
  create
  start _ := pure ()
  process _ _ := throw (.shape (.lacks className "job_process"))
  finish := throw (.shape (.lacks className "job_worker_iteration_end"))
  foreign := some className

/-! ## Tasks -/

namespace Task

variable {σ τ : Type}

/-- Adds to a counter of the task's own. -/
def count (name delta : Value) : Act (Frame σ τ) Unit :=
  Frame.counting (Counters.incrementAt (.text "task") name delta)

/-- The name under which an entry of the engine's configuration is counted. -/
def entryName (config : Flat) (key : Value) : Except Failure Value := do
  let text := ((← key.keyText?).bind config.get?).getD Value.none.plain
  return .text (key.plain ++ "=" ++ text)

/-- What a task does on a row. -/
def deed (r : Row) : Deed → Act (Frame σ τ) Unit
  | .count group name delta => Frame.counting (Counters.incrementAt group name delta)
  | .custom name delta => count name delta
  | .column column before => do count (← Act.ofExcept (columnName column before r)) (.int 1)
  | .tellEntry key => do
    count (← Act.ofExcept (entryName (← Act.read Frame.config) key)) (.int 1)
  | .fail f => throw (.raised f)
  | .metric .. | .keep .. | .atLeast _ | .tell .. | .tellKeys => pure ()

end Task

/-- The actions of a task. -/
structure TaskScript where
  name : String
  createError : Option Raised
  setup : List Action
  map : List Action
  cleanup : List Action

/-- The class of tasks that do these actions, with any state. -/
def TaskScript.toClass {σ τ : Type} (s : TaskScript) (state : τ) : TaskClass σ τ where
  name := s.name
  create := (failIf s.createError).map fun _ => state
  setup := perform (Task.deed noRow) s.setup noRow
  map r := perform (Task.deed r) s.map r
  cleanup := perform (Task.deed noRow) s.cleanup noRow

/-- A class of this name whose objects are no tasks. -/
def foreignTask {σ τ : Type} (name : String) (create : Except Failure Unit) (state : τ) :
    TaskClass σ τ where
  name
  create := create.map fun _ => state
  setup := throw (.shape (.lacks name "task_setup"))
  map _ := pure ()
  cleanup := pure ()

/-! ## Readers -/

/-- A failure while a split is read: which split, and after how many rows. -/
structure ReadError where
  failure : Raised
  split : Nat
  after : Nat

/-- The rows that a reader serves. -/
structure ReaderScript where
  name : String
  splits : List (List Row)
  createError : Option Raised
  planError : Option Raised
  readError : Option ReadError

namespace ReaderScript

/-- What reading a split yields. -/
def feed (s : ReaderScript) (split : Nat) : Feed :=
  let rows := s.splits.getD split []
  match s.readError with
  | none => ⟨rows, none⟩
  | some e => if e.split = split then ⟨rows.take e.after, some (.raised e.failure)⟩ else ⟨rows, none⟩

/-- The class of readers that serve these rows. The splits are named by their numbers. -/
def toClass (s : ReaderScript) : ReaderClass where
  name := s.name
  create _ := do
    failIf s.createError
    return {
      splits := do
        failIf s.planError
        return (List.range s.splits.length).map fun (i : Nat) => .int i
      read v := s.feed ((v.integer?.getD 0).toNat) }

end ReaderScript

/-- A class of this name whose objects are no readers. -/
def foreignReader (name : String) (create : Except Failure Unit) : ReaderClass where
  name
  create _ := create.map fun _ =>
    { splits := .error (.shape (.lacks name "reader_splits")), read := fun _ => ⟨[], none⟩ }

end ScanJobs.Script
