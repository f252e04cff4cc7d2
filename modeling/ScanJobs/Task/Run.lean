import ScanJobs.Task.Basic

/-! # The life of a task

A reader and a task are made, the task is set up, maps the rows of its split in turn until one fails,
and is cleaned up in any case once it was set up. If the cleanup fails too, its failure is the one
that counts. A task without failure ends with its counters, among them how many rows it mapped.
-/

namespace ScanJobs.Task

variable {σ τ : Type}

/-- The group of the counters that every task has. -/
def group : String := "engine.task"

/-- The counter of rows. -/
def inputRecords : String := "MAP_INPUT_RECORDS"

/-- The counter of tasks. -/
def mapTasks : String := "MAP_TASKS"

/-- Maps one row. -/
def mapRow (c : TaskClass σ τ) (r : Row) : Act (Frame σ τ) Unit := do
  Frame.counting (Act.change fun cs => cs.add group inputRecords 1)
  c.map r

/-- Maps the rows of a feed, and fails if it does. -/
def mapFeed (c : TaskClass σ τ) (feed : Feed) : Act (Frame σ τ) Unit := do
  feed.rows.forM (mapRow c)
  match feed.failure with
  | none => pure ()
  | some f => throw f

/-- What a task does on a split. -/
def life (c : TaskClass σ τ) (feed : Feed) : Act (Frame σ τ) Unit := do
  c.setup
  (mapFeed c feed).andFinally c.cleanup

/-- The act of a new task, which ends with the task's counters. -/
def inFrame (config : Config.Flat) (task : τ) (a : Act (Frame σ τ) Unit) : Act σ Counters :=
  Act.ofFun fun s =>
    let (r, f) := a.on ⟨s, config, task, Counters.empty⟩
    (r.map fun _ => f.counters, f.world)

/-- **Runs a task on a split.** -/
def run (c : TaskClass σ τ) (reader : ReaderClass) (config : Config.Flat) (split : Value) :
    Act σ Counters := do
  let r ← Act.ofExcept (reader.create (.this config))
  let t ← Act.ofExcept c.create
  let counters ← inFrame config t (life c (r.read split))
  return counters.add group mapTasks 1

end ScanJobs.Task
