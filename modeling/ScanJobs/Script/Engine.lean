import ScanJobs.Engine.Basic
import ScanJobs.Script.Action

/-! # Scripted engines

A scripted engine runs nothing. It answers as it is told to and keeps a list of what it was asked.
-/

namespace ScanJobs.Script

open ScanJobs.Engine

/-- What an engine was asked to do. -/
inductive Call where
  | create (config : Config.Flat)
  | assign (setting : String) (value : Value)
  /-- With whether the caller may be told to stop waiting. -/
  | submit (token : Bool)
  | failureText

/-- The answers of an engine, which may be values of any sort. -/
structure EngineScript where
  name : Value
  createError : Option Raised
  succeeded : Bool
  submitError : Option Raised
  jobId : Value
  jobIdError : Option Raised
  failure : Value
  failureError : Option Raised
  counters : Value
  countersError : Option Raised

/-- A value as a call shows it: a number or a text as it is, any other as messages show it. -/
def called (v : Value) : Value :=
  match v.integer?, v.text? with
  | none, none => .text v.display
  | _, _ => v

/-- The value of a setting as a call shows it: classes by their names. -/
def valueOf {σ τ : Type} : Setting σ τ → Value
  | .name v => called v
  | .output _ c => called ((c.map fun c => Value.text c.name).getD .none)
  | .reduceTasks n => called n
  | .task c => called (c.value TaskClass.name)
  | .reader c => called (c.value ReaderClass.name)

/-- An answer, or a failure in its place. -/
def answer {α : Type} (f : Option Raised) (a : α) : Except Failure α :=
  (failIf f).map fun _ => a

/-- The engine with these answers; `record` keeps what it is asked. -/
def EngineScript.toEngine {σ τ : Type} (s : EngineScript) (record : Call → Act σ Unit) :
    Engine σ τ Unit where
  name := s.name
  create config := do
    let c ← Act.ofExcept (config.get "config_as_dict")
    Journal.onWorld (record (.create c))
    Act.ofExcept (failIf s.createError)
  assign setting := note (.assign setting.label (valueOf setting))
  submit token := do
    note (.submit token.isSome)
    Act.ofExcept (answer s.submitError s.succeeded)
  jobId := Act.ofExcept (answer s.jobIdError s.jobId)
  counters := Act.ofExcept (answer s.countersError s.counters)
  failureText := do
    note .failureText
    Act.ofExcept (answer s.failureError s.failure)
where
  note (c : Call) : Act (Stage σ Unit) Unit :=
    Stage.onJournal (Journal.onWorld (record c))

end ScanJobs.Script
