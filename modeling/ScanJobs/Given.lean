import ScanJobs.Value.Shape

/-! # What is given

Where a thing of one sort is meant, a caller may give such a thing, nothing, or a thing of another
sort. That it is another shows when it is asked for a part which it lacks, and not before.
-/

namespace ScanJobs

/-- A thing of another sort than is meant. -/
structure Stranger where
  /-- How it is named, if it has a name. -/
  name? : Option String
  /-- The failure of one who asks it for a part. -/
  failure : String → Failure

/-- **What is given** in the place of a thing of one sort. -/
inductive Given (α : Type) where
  | this (a : α)
  | nothing
  | other (s : Stranger)

namespace Given

variable {α β : Type}

/-- Something is given. -/
def isSome : Given α → Bool
  | .nothing => false
  | _ => true

/-- The thing that is meant, for one who asks it for `part`. -/
def get (part : String) : Given α → Except Failure α
  | .this a => .ok a
  | .nothing => .error (Value.none.lacking part)
  | .other s => .error (s.failure part)

/-- What a thing of one sort has in the place of what is given, if it has it. -/
def bind (f : α → Given β) : Given α → Given β
  | .this a => f a
  | .nothing => .nothing
  | .other s => .other s

/-- The thing, if it is there. -/
def ofOption : Option α → Given α
  | some a => .this a
  | none => .nothing

@[simp] theorem get_this (part : String) (a : α) : (this a).get part = .ok a := rfl

end Given

end ScanJobs
