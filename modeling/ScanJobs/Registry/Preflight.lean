import ScanJobs.Registry.Resolve
import ScanJobs.Journal

/-! # Checking a job before it is submitted

Workers rebuild a job by its name. Before it is submitted, the name is looked up once where the job
was made: it must lead to a factory, and if that is a class, to the class of the job.
-/

namespace ScanJobs.Host

variable {σ : Type}

/-- That a name leads to another class. -/
def otherClassLine (name : String) (found submitted : JobClass) : String :=
  "Class name " ++ name ++ " resolves to " ++ found.qualname ++
    ", not to the submitted job class " ++ submitted.qualname

/-- The factory of a name. It is noted if there is none. -/
def locate (h : Host σ) (name : String) : Act (Journal σ) Factory := do
  match ← Act.attempt (Journal.onWorld (h.resolve name none)) with
  | .ok f => return f
  | .error e =>
    if e.kind = .classResolution then
      Journal.log .error ("Unable to locate class with name " ++ name)
    throw e

/-- **The name under which workers will find a job's class.** -/
def preflight (h : Host σ) (job : Option JobClass) : Act (Journal σ) String := do
  match job with
  | none => throw (.missing "scan_job")
  | some c =>
    let name ← Act.read fun j => (h.registry j.world).nameFor c
    match ← h.locate name with
    | .function .. | .object .. => return name
    | .jobClass d =>
      if d = c then return name
      else
        Journal.log .error (otherClassLine name d c)
        throw (.job (.otherClass name))

end ScanJobs.Host
