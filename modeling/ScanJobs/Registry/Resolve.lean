import ScanJobs.Registry.Basic
import ScanJobs.Job.Behaviour
import ScanJobs.Text.Split

/-! # Finding jobs by name

Workers know a job by its name only. A name that is not bound in the registry of their host may
become so when a module is imported: the module that owns the job if it is known, else those that the
name itself starts with, the longest first, until one can be imported.
-/

namespace ScanJobs

open Text

/-- Where jobs are looked up: a registry, a way to import modules, and what the classes do. -/
structure Host (σ : Type) where
  registry : σ → Registry
  importModule : String → Act σ Unit
  behaviour : JobClass → Job.Behaviour

namespace Host

variable {σ : Type}

/-- The host in a part of the world. -/
def within {ρ : Type} (h : Host ρ) (get : σ → ρ) (set : ρ → σ → σ) : Host σ where
  registry w := h.registry (get w)
  importModule m := Act.zoom get set (h.importModule m)
  behaviour := h.behaviour

/-- The modules that a name starts with, the longest first. -/
def ownersOf (name : String) : List String :=
  let parts := split '.' name
  ((List.range parts.length).drop 1).reverse.map fun n => join '.' (parts.take n)

/-- Whether a failed import says no more than that the module, or one that it lies in, is not there.
The name of the missing module, if there is one, must be a text. -/
def isAbsence (module : String) (f : Failure) : Except Failure Bool :=
  match f.kind, f.missingModule.truth, f.missingModule.text? with
  | .missingModule, false, _ => .ok true
  | .missingModule, true, some m => .ok (module == m || startsWith (m ++ ".") module)
  | .missingModule, true, none => .error (.shape (.notJoinable f.missingModule.typeName))
  | _, _, _ => .ok false

/-- Imports the first of the modules that is there. -/
def importFirst (h : Host σ) : List String → Act σ Unit
  | [] => pure ()
  | m :: ms => do
    match ← Act.attempt (h.importModule m) with
    | .ok () => pure ()
    | .error f => if ← Act.ofExcept (isAbsence m f) then h.importFirst ms else throw f

/-- Imports the module that owns a job. -/
def importOwner (h : Host σ) (name : Value) (owner : String) : Act σ Unit := do
  match ← Act.attempt (h.importModule owner) with
  | .ok () => pure ()
  | .error f => throw (if f.kind.isImport then .job (.notImported owner name f.message) else f)

/-- Imports what may bind a name. -/
def importFor (h : Host σ) (name : String) (owner : Option String) : Act σ Unit :=
  match owner with
  | some m => if m.isEmpty then h.importFirst (ownersOf name) else h.importOwner (.text name) m
  | none => h.importFirst (ownersOf name)

/-- **The factory of a name**, looked up again after an import if the name is not bound. -/
def resolve (h : Host σ) (name : String) (owner : Option String) : Act σ Factory := do
  match (← Act.read h.registry).get? name with
  | some f => return f
  | none =>
    h.importFor name owner
    match (← Act.read h.registry).get? name with
    | some f => return f
    | none => throw (.job (.unbound (.text name)))

/-- A new job of a class. -/
def newJob (h : Host σ) (c : JobClass) : Except Failure Job.Instance :=
  (h.behaviour c).create.map fun _ => ⟨c, none⟩

/-- **A new job by name.** -/
def create (h : Host σ) (name : String) (owner : Option String) : Act σ Job.Instance := do
  let f ← h.resolve name owner
  Act.ofExcept (h.newJob f.makes)

end Host

end ScanJobs
