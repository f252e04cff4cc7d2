import ScanJobs.Table
import ScanJobs.Value.Shape

/-! # Application configurations

An application configuration binds keys to values. It is made of a mapping that may hold further
mappings: these are flattened, so that a value stands under the names on its way joined by dots.
Options are read from it by their paths.
-/

namespace ScanJobs.Config

open Schema Text

/-- The text of a key, less the blanks at its ends. -/
def properKey (key : Value) : Except Failure String :=
  match key.text? with
  | some s => if isBlank s then .error (.config (.improperKey key)) else .ok (strip s)
  | none => .error (.config (.improperKey key))

/-- A key below another; nothing stands above the outermost keys. -/
def keyBelow (parent key : String) : String :=
  if parent.isEmpty then key else parent ++ "." ++ key

mutual

/-- Binds the entries of a mapping under dotted keys, in the order in which they stand. -/
def flattenInto (t : Table String Value) (parent : String) :
    List (Value × Value) → Except Failure (Table String Value)
  | [] => .ok t
  | (k, v) :: es => do
    let key ← properKey k
    flattenInto (← flattenAt t (keyBelow parent key) v) parent es

/-- Binds what stands under a key. A mapping is flattened by itself before its entries are bound. -/
def flattenAt (t : Table String Value) (key : String) : Value → Except Failure (Table String Value)
  | .map es => do return t.insertAll (← flattenInto Table.empty key es).entries
  | v => .ok (t.insert key v)

end

/-- **Flattens a mapping.** Of two values under one key the later counts, at the place of the
earlier. -/
def flatten (entries : List (Value × Value)) (parent : String) :
    Except Failure (Table String Value) :=
  flattenInto Table.empty parent entries

/-- A configuration of an application. -/
structure Application where
  values : Table String Value

namespace Application

/-- The configuration that a mapping describes. -/
def ofEntries (entries : List (Value × Value)) : Except Failure Application :=
  (flatten entries "").map Application.mk

/-- The configuration that a value describes, which is a map or stands for none. -/
def ofValue (v : Value) : Except Failure Application := do
  ofEntries (← v.entriesIfAny)

/-- The keys by code point. -/
def keys (a : Application) : List String :=
  a.values.sortedKeys

/-- **The value of an option**, or its default if there is none under its path. -/
def get (a : Application) (o : OptionRef) (names : List String) : Except Failure Value := do
  let key ← (o.site.path names).mapError fun f => .config (.path f)
  match a.values.get? key with
  | some v => (o.accept v).mapError fun u => .config (.unfit u)
  | none => match o.default with
    | some v => .ok v
    | none => .error (.config .noDefault)

/-- The value of an element. A scope has none, and lacks what an option is asked for. -/
def getAt (a : Application) (n : Node) (names : List String) : Except Failure Value := do
  match n.option? with
  | some o => a.get o names
  | none =>
    let key ← (n.site.path names).mapError fun f => Failure.config (.path f)
    .error (.shape (.lacks n.site.typeName
      (if a.values.contains key then "option_validate" else "default")))

/-- The rest of a key below a path. Every key is below the empty path. -/
def relativeKey? (path key : String) : Option String :=
  if path.isEmpty then some key
  else if startsWith (path ++ ".") key then some (dropFirst (path.length + 1) key)
  else none

/-- The entries below a path, under the rest of their keys. -/
def below (a : Application) (path : String) : List (String × Value) :=
  a.values.entries.filterMap fun e => (relativeKey? path e.1).map fun key => (key, e.2)

/-- What follows a scope in a key is a child of it, or may be a name of the user. -/
def isInside (scope : Node) (relative : String) : Bool :=
  scope.declares ((split '.' relative).headD "") || scope.isUmbrella

/-- **The entries inside a scope**, under keys relative to it. An option has no inside; this shows
only if there are entries below its path. -/
def subset (a : Application) (scope : Node) (names : List String) :
    Except Failure (List (String × Value)) := do
  let path ← (scope.site.path names).mapError fun f => .config (.path f)
  let entries := a.below path
  if scope.element.isOption && !entries.isEmpty then
    .error (.shape (.lacks scope.site.typeName "namespace_child"))
  else return entries.filter fun e => isInside scope e.1

/-- The value is a key of the configuration. -/
def contains (a : Application) (key : Value) : Except Failure Bool :=
  match key.unhashable?, key.text? with
  | some v, _ => .error (.shape (.unhashable v.typeName))
  | none, some s => .ok (a.values.contains s)
  | none, none => .ok false

/-- How messages show the configuration. -/
def shown (a : Application) : String :=
  "ApplicationConfiguration(" ++ toString a.values.size ++ " keys)"

end Application

end ScanJobs.Config
