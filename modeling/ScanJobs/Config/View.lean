import ScanJobs.Config.Application
import ScanJobs.Config.Flat

/-! # Views of flat configurations

A view shows the keys below a prefix as the options of a scope: an option stands under the prefix and
its path from the scope, with its value in flat form. A worker rebuilds the configuration of its job
from such a view. An element that is no scope may be the root of a view too, but no key leads on from
it.
-/

namespace ScanJobs.Config

open Schema Text

/-- A value of an option in flat form, where sets hand out their items in the given order. -/
def serializeIn (l : Value.Listing) (o : OptionRef) (v : Value) : Except Failure String := do
  let w ← (o.accept v).mapError fun u => Failure.config (.unfit u)
  (OptionType.flattenIn l w).mapError fun f => .config (.ofShapeless f)

/-- A value of an option in flat form. -/
def serialize (o : OptionRef) (v : Value) : Except Failure String :=
  serializeIn .textsFirst o v

/-- A value of an option, as its type has it. -/
def validate (o : OptionRef) (v : Value) : Except Failure Value :=
  (o.accept v).mapError fun u => .config (.unfit u)

/-- A scope and the prefix of its keys. -/
structure View where
  root : Node
  above : String

namespace View

/-- A prefix that is not blank, stripped. -/
def properPrefix (above : String) : Except Failure String :=
  if isBlank above then .error (.blank "prefix") else .ok (strip above)

/-- A view with a prefix that must not be blank. -/
def create (root : Node) (above : String) : Except Failure View :=
  (properPrefix above).map (View.mk root)

/-- The key of an element. -/
def keyFor (w : View) (element : Site) (names : List String) : Except Failure String :=
  match element.pathFrom w.root.site names with
  | .ok path => .ok (w.above ++ "." ++ path)
  | .error f => .error (.config (.misplaced element.display f))

/-- **Stores a value of an option.** -/
def set (w : View) (c : Flat) (o : OptionRef) (v : Value) (names : List String) :
    Except Failure Flat := do
  let key ← w.keyFor o.site names
  c.set key (← serialize o v)

/-- **The value of an option**, or its default if none is stored. -/
def get (w : View) (c : Flat) (o : OptionRef) (names : List String) : Except Failure Value := do
  match c.stored? (← w.keyFor o.site names) with
  | some t => validate o t.value
  | none => match o.default with
    | some v => .ok v
    | none => .error (.config .noDefault)

/-- The value of an element. A scope has none, and lacks what an option is asked for. -/
def getAt (w : View) (c : Flat) (n : Node) (names : List String) : Except Failure Value := do
  match n.option? with
  | some o => w.get c o names
  | none =>
    let stored := c.contains (← w.keyFor n.site names)
    .error (.shape (.lacks n.site.typeName (if stored then "option_validate" else "default")))

/-- The key below the prefix, and the value stored under it, as a key and a value of the job's
configuration. -/
def entryOf (w : View) (rootPath : String) (entry : String × FlatText) :
    Except Failure (Value × Value) := do
  let relative := dropFirst (w.above.length + 1) entry.1
  let target ← (w.root.parse relative).mapError fun f => Failure.config (.strayKey f)
  match target.option? with
  | none => .error (.config (.flatKeyOfScope entry.1 target.site))
  | some o => return (.text (keyBelow rootPath relative), ← validate o entry.2.value)

/-- The keys below the prefix by code point, with their texts. -/
def entries (w : View) (c : Flat) : List (String × FlatText) :=
  c.values.sorted.filter fun e => Flat.isUnder w.above e.1 && e.1 != w.above

/-- **The configuration that the keys below the prefix hold**, under the paths of the options. -/
def toApplication (w : View) (c : Flat) : Except Failure Application := do
  let rootPath ← (w.root.site.path []).mapError fun f => Failure.config (.path f)
  Application.ofEntries (← (w.entries c).mapM (w.entryOf rootPath))

end View

end ScanJobs.Config
