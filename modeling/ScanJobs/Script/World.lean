import ScanJobs.Engine.Local
import ScanJobs.Job.Descriptor
import ScanJobs.Registry.Library
import ScanJobs.Script.Engine
import ScanJobs.Task.Scan

/-! # The world of scripts

Scripts run in one world. It has a library of modules and registries, it counts the local jobs made so
far, from which they get their ids, and it keeps what each scripted engine was asked.
-/

namespace ScanJobs.Script

open Engine

/-- What scripts act on. -/
structure World where
  library : Library
  calls : Array (List Call)
  jobs : Nat

/-- The state of the tasks that scripts run. -/
abbrev TaskState := ScanTask.State

namespace World

/-- The world at the start. -/
def empty : World := ⟨Library.empty, #[], 0⟩

instance : Inhabited World := ⟨empty⟩

/-- An act on the library. -/
def onLibrary {α : Type} (a : Act Library α) : Act World α :=
  Act.zoom World.library (fun library w => { w with library }) a

/-- A host that uses one of the registries. -/
def host (behaviour : JobClass → Job.Behaviour) (registry : Nat) : Host World :=
  (Library.host behaviour registry).within World.library fun library w => { w with library }

/-- The id of the next local job. -/
def newId : Act World String :=
  Act.ofFun fun w => (.ok (LocalJob.idOf w.jobs), { w with jobs := w.jobs + 1 })

/-- Keeps what a scripted engine was asked. -/
def record (engine : Nat) (c : Call) : Act World Unit :=
  Act.change fun w => { w with calls := w.calls.modify engine (· ++ [c]) }

end World

/-- An engine of either sort. A scripted one has a number, for what it was asked. -/
inductive AnyEngine where
  | localEngine (e : Local)
  | scripted (number : Nat) (s : EngineScript)

namespace AnyEngine

/-- Uses the engine, whatever its jobs are. -/
def use {β : Type} (e : AnyEngine) (f : {η : Type} → Engine World TaskState η → β) : β :=
  match e with
  | .localEngine e => f (e.toEngine World.newId)
  | .scripted i s => f (s.toEngine (World.record i))

/-- The name of the engine. -/
def name (e : AnyEngine) : Value :=
  e.use Engine.name

end AnyEngine

end ScanJobs.Script
