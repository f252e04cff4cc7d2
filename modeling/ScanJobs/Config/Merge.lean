import ScanJobs.Act
import ScanJobs.Config.Keys
import ScanJobs.Config.View
import ScanJobs.Given

/-! # Handing a job's configuration to the workers

Workers see only the flat configuration of the engine. Before a job is submitted, the entries of its
configuration inside its root are written there in flat form. All entries are read and serialized
before the first is written, so a merge that fails changes nothing.
-/

namespace ScanJobs.Config

open Schema

/-- The failure of one who has a root but no configuration; it names what is given as the root. -/
def unpaired : Given Node → Failure
  | .this r => .config (.configurationNeeded r.name)
  | .nothing => Value.none.lacking "name"
  | .other ⟨some name, _⟩ => .config (.configurationNeeded name)
  | .other ⟨none, failure⟩ => failure "name"

/-- **A configuration and its root come together or not at all.** -/
def checkPairing (app : Given Application) (root : Given Node) : Except Failure Unit :=
  match app.isSome, root.isSome with
  | true, false => .error (.config .rootNeeded)
  | false, true => .error (unpaired root)
  | _, _ => .ok ()

/-- What is to be written for one entry of the job's configuration. -/
def writeFor (w : View) (entry : String × Value) : Except Failure (String × String) := do
  let target ← (w.root.parse entry.1).mapError fun f => Failure.config (.strayKey f)
  match target.option? with
  | none => .error (.config (.keyOfScope entry.1 target.site))
  | some o =>
    let key ← w.keyFor o.site target.names
    return (key, ← serialize o entry.2)

/-- All that is to be written, by the keys of the entries. -/
def writesFor (w : View) (app : Application) : Except Failure (List (String × String)) := do
  (Text.sortByKey (← app.subset w.root [])).mapM (writeFor w)

/-- Stores a text in what is given as a configuration. -/
def write (key text : String) : Act (Given Flat) Unit :=
  Act.tryChange fun g => do
    return .this (← (← g.get "config_set").set key text)

/-- Stores several texts in turn. -/
def writeAll (entries : List (String × String)) : Act (Given Flat) Unit :=
  entries.forM fun e => write e.1 e.2

/-- **Writes the entries inside the root** under the keys of scan jobs. There is a view of them
unless the job has no configuration. -/
def merge (app : Given Application) (root : Given Node) (keys : Keys) :
    Act (Given Flat) (Option View) := do
  Act.ofExcept (checkPairing app root)
  match (← Act.read Given.isSome), app.isSome with
  | false, _ => throw (.missing "engine_config")
  | true, false => return none
  | true, true =>
    let app ← Act.ofExcept (app.get "config_get_subset")
    let root ← Act.ofExcept (root.get "namespace")
    let w ← Act.ofExcept (View.create root keys.above)
    let writes ← Act.ofExcept (writesFor w app)
    write keys.root root.name
    writeAll writes
    return some w

end ScanJobs.Config
