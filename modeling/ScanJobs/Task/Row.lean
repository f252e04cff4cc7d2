import ScanJobs.Value.Shape

/-! # Rows

A task shows each row to its job as it is, or as a vertex, which has a value for each of its columns.
-/

namespace ScanJobs

/-- A row of a store: its key and its entries, a column and a value each. -/
structure Row where
  key : Value
  entries : List (Value × Value)
deriving Repr, Inhabited

namespace Row

/-- The last value of a column. -/
def value? (r : Row) (column : Value) : Option Value :=
  (r.entries.findRev? fun e => Value.same e.1 column).map Prod.snd

/-- The row with each column once, at its first place and with its last value, as a vertex has its
properties. -/
def asVertex (r : Row) : Row :=
  { r with entries := Value.mapEntries r.entries }

end Row

/-- How a task shows a row to its job. -/
inductive Presentation where
  | row
  | vertex
deriving DecidableEq, Repr

/-- **The row as a job sees it.** A vertex is known by its columns, which must be fit for keys. -/
def Row.present (r : Row) : Presentation → Except Failure Row
  | .row => .ok r
  | .vertex => do
    r.entries.forM fun e => e.1.asKey.map fun _ => ()
    return r.asVertex

end ScanJobs
