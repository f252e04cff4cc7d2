import ScanJobs.Act

/-! # Journals

Some acts on the world leave lines in a journal, for those who run jobs to read.
-/

namespace ScanJobs

/-- How urgent a line is. -/
inductive Level where
  | info
  | warning
  | error
deriving DecidableEq, Repr

/-- The label of a level. -/
def Level.label : Level → String
  | .info => "INFO"
  | .warning => "WARNING"
  | .error => "ERROR"

/-- A line of a journal. -/
structure Line where
  level : Level
  text : String
deriving DecidableEq, Repr

/-- A world, and the lines written so far. -/
structure Journal (σ : Type) where
  world : σ
  lines : List Line

namespace Journal

variable {σ α : Type}

/-- A world with nothing written yet. -/
def start (world : σ) : Journal σ := ⟨world, []⟩

/-- Writes a line. -/
def log (level : Level) (text : String) : Act (Journal σ) Unit :=
  Act.change fun j => { j with lines := j.lines ++ [⟨level, text⟩] }

/-- An act on the world that writes nothing. -/
def onWorld (a : Act σ α) : Act (Journal σ) α :=
  Act.zoom Journal.world (fun w j => { j with world := w }) a

end Journal

end ScanJobs
