import ScanJobs.Config.View
import ScanJobs.Job.Outcome
import ScanJobs.Script.Class
import ScanJobs.Script.World
import ScanJobs.Settings.Load

/-! # Things by name

Scripts bind things to names and refer to them later. A reference may also be a value, among them the
one that stands for nothing. Whoever uses a thing that is not of the sort that is meant finds that it
lacks some part.
-/

namespace ScanJobs.Script

open Schema Config Engine

/-- What a script refers to. Things that change are known by their numbers. -/
inductive Thing where
  | value (v : Value)
  | element (site : Site)
  | application (a : Application)
  | flat (number : Nat)
  /-- A view, of what is meant to be its root and its configuration. -/
  | view (root : Thing) (above : String) (config : Thing)
  | settings (s : Settings)
  | counters (number : Nat)
  /-- The metrics of a job that runs, kept in what is meant to be the counters of its task. -/
  | tally (counters : Thing)
  | metrics (m : Metrics.Summary)
  | token (number : Nat)
  | engine (e : AnyEngine)
  | runner (e : AnyEngine)
  | cls (c : Class)
  | function (number : Nat) (makes : JobClass)
  | job (number : Nat)
  | registry (number : Nat)
  /-- What a job is made from, with what is meant to be its configuration, its task and its reader. -/
  | descriptor (d : Job.Descriptor World TaskState) (config task reader : Thing)
  | outcome (o : Job.Outcome)
  | worker (number : Nat) (p : Presentation)

namespace Thing

/-- The name of the type of a thing. -/
def typeName : Thing → String
  | .value v => v.typeName
  | .element site => site.typeName
  | .application _ => "ApplicationConfiguration"
  | .flat _ => "EngineConfiguration"
  | .view .. => "PrefixedEngineConfiguration"
  | .settings _ => "RunnerSettings"
  | .counters _ => "TaskCounters"
  | .tally _ => "WorkerScanMetrics"
  | .metrics _ => "ScanMetrics"
  | .token _ => "CancellationToken"
  | .engine (.localEngine _) => "LocalExecutionEngine"
  | .engine (.scripted ..) => "StubEngine"
  | .runner _ => "ScanJobRunner"
  | .cls _ => "type"
  | .function .. => "function"
  | .job _ => "LocalEngineJob"
  | .registry _ => "ScanJobRegistry"
  | .descriptor .. => "JobDescriptor"
  | .outcome o => o.result.label
  | .worker _ p => ScanTask.className p

/-- The failure of one who asks a thing for a part that it lacks. -/
def lacking (t : Thing) (part : String) : Failure :=
  .shape (match t with
    | .cls c => .classLacks c.name part
    | _ => .lacks t.typeName part)

/-- How the thing is named, if it has a name. -/
def name? : Thing → Option String
  | .value (.member m) => some m.name
  | .element site => some site.last.name.text
  | _ => none

/-- The thing as one of another sort than is meant. -/
def stranger (t : Thing) : Stranger :=
  ⟨t.name?, t.lacking⟩

/-! ## Things in messages -/

/-- What is needed to show things: the flat configurations by their numbers, and the marker class. -/
structure Scene where
  flatAt : Nat → Flat
  marker : JobClass

/-- How messages show fields. -/
def displayFields (separator : String) (fields : List (String × String)) : String :=
  separator.intercalate (fields.map fun f => f.1 ++ "=" ++ f.2)

/-- How messages show a record. -/
def displayRecord (name : String) (fields : List (String × String)) : String :=
  name ++ "(" ++ displayFields ", " fields ++ ")"

/-- How messages show metrics. -/
def displayMetrics (m : Metrics.Summary) : String :=
  displayRecord "ScanMetrics" [("standard", (Value.map m.standard).display),
    ("custom", (Value.map m.custom).display), ("engine", (Value.map m.engine).display)]

/-- How messages show an event, of which they leave out the time. -/
def eventValue (e : Job.Event) : Value :=
  let details := if e.details.isEmpty then []
    else [(Value.text "details", Value.map (e.details.map fun d => (.text d.1, d.2)))]
  .map ([(.text "state", .text e.phase.label), (.text "job_name", e.jobName)] ++ details)

/-- How messages show an outcome. -/
def displayOutcome (o : Job.Outcome) : String :=
  let own := match o.result with
    | .succeeded m => [("metrics", displayMetrics m)]
    | .failed id failure => [("job_id", id.display), ("failure_text", failure.display)]
    | .unreadable => []
  displayRecord o.result.label (("job_name", o.jobName.display) :: own ++
    [("timeline", (Value.list (o.timeline.map eventValue)).display)])

/-- How messages show settings. -/
def settingsFields (s : Settings) : List (String × String) :=
  s.entries.map fun e => (e.1, e.2.display)

/-- How messages show a class. Those that need no import go by their names alone. -/
def displayClass (c : JobClass) : String :=
  "<class " ++ ShapeFault.marked (if c.module = "builtins" then c.qualname else c.name) ++ ">"

/-- How messages show a thing. -/
def display (scene : Scene) : Thing → String
  | .value v => v.display
  | .element site => site.shown
  | .application a => a.shown
  | .flat number => (scene.flatAt number).shown
  | .settings s => displayRecord "RunnerSettings" (settingsFields s)
  | .metrics m => displayMetrics m
  | .outcome o => displayOutcome o
  | .cls c => displayClass c.identity
  | .descriptor d config task reader =>
    let outputs := Job.Descriptor.slots.map fun s => (s.name ++ "_class", displayClass scene.marker)
    displayRecord "JobDescriptor" ([("job_name", d.name.display),
      ("engine_configuration", config.display scene), ("worker_task_class", task.display scene),
      ("input_reader_class", reader.display scene)] ++ outputs ++
      [("reduce_task_count", d.reduceTasks.display)])
  | t => "<" ++ t.typeName ++ " object>"

/-- A thing as text. -/
def plain (scene : Scene) : Thing → String
  | .value v => v.plain
  | .element site => site.display
  | .settings s => displayFields " " (settingsFields s)
  | t => t.display scene

/-! ## Things of one sort -/

/-- The thing as a value. -/
def value? : Thing → Option Value
  | .value v => some v
  | _ => none

/-- The thing as an element. -/
def site? : Thing → Option Site
  | .element site => some site
  | _ => none

/-- The thing as a configuration of a job. -/
def application? : Thing → Option Application
  | .application a => some a
  | _ => none

/-- The thing as a flat configuration. -/
def flat? : Thing → Option Nat
  | .flat number => some number
  | _ => none

/-- The thing as counters. -/
def counters? : Thing → Option Nat
  | .counters number => some number
  | _ => none

/-- The thing as metrics of a job that runs. -/
def tally? : Thing → Option Thing
  | .tally t => some t
  | _ => none

/-- The thing as metrics. -/
def metrics? : Thing → Option Metrics.Summary
  | .metrics m => some m
  | _ => none

/-- The thing as a token. -/
def token? : Thing → Option Nat
  | .token number => some number
  | _ => none

/-- The thing as an engine. -/
def engine? : Thing → Option AnyEngine
  | .engine e => some e
  | _ => none

/-- The thing as a runner. -/
def runner? : Thing → Option AnyEngine
  | .runner e => some e
  | _ => none

/-- The thing as a local job. -/
def job? : Thing → Option Nat
  | .job number => some number
  | _ => none

/-- The thing as a registry. -/
def registry? : Thing → Option Nat
  | .registry number => some number
  | _ => none

/-- The thing as an outcome. -/
def outcome? : Thing → Option Job.Outcome
  | .outcome o => some o
  | _ => none

/-- The thing as a factory of jobs. Only classes and functions are. -/
def factory? : Thing → Option Factory
  | .cls c => some (.jobClass c.identity)
  | .function number makes => some (.function number makes)
  | _ => none

/-! ## Uses -/

/-- The thing is there. -/
def isSome : Thing → Bool
  | .value .none => false
  | _ => true

/-- **The thing in its use.** One of another sort lacks the part that is asked of it. -/
def use {α : Type} (f : Thing → Option α) (part : String) (t : Thing) : Except Failure α :=
  (f t).elim (.error (t.lacking part)) .ok

/-- The thing in its use, if it is there. -/
def useIfAny {α : Type} (f : Thing → Option α) (part : String) (t : Thing) :
    Except Failure (Option α) :=
  if t.isSome then (t.use f part).map some else .ok none

/-- The thing where one of one sort is meant. -/
def given {α : Type} (f : Thing → Option α) (t : Thing) : Given α :=
  match f t with
  | some a => .this a
  | none => if t.isSome then .other t.stranger else .nothing

/-- The thing in the place of a class of one sort. -/
def classArg {α : Type} (scene : Scene) (f : Class → α) : Thing → ClassArg α
  | .cls c => .cls (f c)
  | .value .none => .null
  | .value v => .other v.display v.typeName v
  | t => .other (t.display scene) t.typeName (.text (t.display scene))

/-- The thing in the place of a class that is put out. -/
def output? (scene : Scene) : Thing → Option OutputClass
  | .cls c => some c.output
  | .value .none => none
  | t => some (.other (t.display scene))

/-! ## Configurations -/

/-- Options can be read from the thing: it is a configuration of some sort. -/
def isConfiguration : Thing → Bool
  | .application _ | .flat _ | .view .. => true
  | _ => false

/-- Options can be stored through the thing: it is a configuration of an engine, or a view of one. -/
def isWritable : Thing → Bool
  | .flat _ | .view .. => true
  | _ => false

/-- The failure of one who asks a thing for the parts of a flat configuration. Other configurations
have some of these parts, but take a key for an option, which no text is. -/
def flatFailure (t : Thing) (part : String) : Failure :=
  match t, part with
  | .application _, "config_get" | .view .., "config_set" => noOption
  | .application _, "config_keys" =>
    .shape (.tooManyArguments "ApplicationConfiguration.config_keys" 1 1 2)
  | .view _ _ config, "config_get" =>
    if config.isConfiguration then noOption else config.lacking "config_get"
  | t, part => t.lacking part
where
  noOption : Failure := (Value.text "").lacking "namespace"

/-- The thing where a flat configuration is meant; `flatAt` gives these by their numbers. -/
def givenFlat (flatAt : Nat → Flat) : Thing → Given Flat
  | .flat number => .this (flatAt number)
  | .value .none => .nothing
  | t => .other ⟨t.name?, t.flatFailure⟩

end Thing

end ScanJobs.Script
