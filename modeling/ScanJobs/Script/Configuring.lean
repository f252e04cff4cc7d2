import ScanJobs.Bootstrap
import ScanJobs.Config.Merge
import ScanJobs.Script.Declaring
import ScanJobs.Settings.Load

/-! # Steps on configurations

Steps on configurations of applications and of engines, on views, and on settings.
-/

namespace ScanJobs.Script.Session

open Schema Config

/-! ## Configurations of engines -/

/-- The configuration that a thing is. -/
def flat (part : String) (t : Thing) : Step Flat := do
  let number ← use Thing.flat? part t
  Act.read (·.flatAt number)

/-- The number of a configuration; the first one's, if there is none. -/
def flatNumber (t : Thing) : Nat :=
  t.flat?.getD 0

/-- Puts a changed configuration in the place of one. -/
def change (part : String) (t : Thing) (f : Flat → Except Failure Flat) : Step Flat := do
  let c ← Act.ofExcept (f (← flat part t))
  setFlat (flatNumber t) c
  return c

/-- A copy. -/
def flatCopy (t : Thing) : Step (Thing × Flat) := do
  let c := (← flat "config_copy" t).copy
  return (← newFlat c, c)

/-- What is stored under a key. -/
def lookUp (c : Flat) (key : Value) : Except Failure (Option FlatText) :=
  return (← key.keyText?).bind c.stored?

/-- Removes a key. -/
def flatUnset (t : Thing) (key : Value) : Step Flat :=
  change "config_unset" t fun c => return ((← key.keyText?).map c.unset).getD c

/-- Whether values are keys. -/
def flatContains (c : Flat) (keys : List Value) : Except Failure (List Bool) :=
  keys.mapM fun key => return (← key.keyText?).any c.contains

/-- The keys at or below one; all keys, if what is given does not stand for true. -/
def keysUnder (c : Flat) (above : Value) : Except Failure (List String) :=
  match above.truth, above.text? with
  | false, _ => .ok c.keys
  | true, some s => .ok (c.keysUnder s)
  | true, none => .error (.shape (.notJoinable above.typeName))

/-- The keys of a configuration of either sort. That of an application tells only all of them. -/
def keysOf (t : Thing) (above : Option Value) : Step (List String) := do
  match t, above with
  | .application a, none => return a.keys
  | .application _, some _ =>
    throw (.shape (.tooManyArguments "ApplicationConfiguration.config_keys" 1 1 2))
  | t, above => Act.ofExcept (keysUnder (← flat "config_keys" t) (above.getD .none))

/-- The keys of scan jobs in a namespace, or the usual ones. -/
def keys (name : Option Value) : Except Failure Keys :=
  match name with
  | none => .ok Keys.standard
  | some v => do Keys.ofNamespace (← v.textFor "strip")

/-! ## Views -/

/-- A view. Its root and its configuration must be given, but what they are shows only later. -/
def newView (root : Thing) (above : Value) (config : Thing) : Except Failure Thing :=
  match root.isSome, config.isSome with
  | false, _ => .error (.missing "root")
  | true, false => .error (.missing "engine_config")
  | true, true => do return .view root (← View.properPrefix (← above.textFor "strip")) config

/-- The view that a thing is: what is meant to be its root, the prefix, and what is meant to be its
configuration. -/
def view (part : String) (t : Thing) : Except Failure (Thing × String × Thing) :=
  t.use
    (fun
      | .view root above config => some (root, above, config)
      | _ => none)
    part

/-- The key of an element in a view. An element without a path below the root stands nowhere in it. -/
def keyIn (s : Session) (root : Thing) (above : String) (element : Thing) (names : List Value) :
    Except Failure String :=
  match s.path element names root with
  | .ok path => .ok (above ++ "." ++ path)
  | .error (.config (.path f)) => .error (.config (.misplaced (s.plain element) f))
  | .error f => .error f

/-- The key of an element in a view. -/
def viewKey (t element : Thing) (names : List Value) : Step String := do
  let (root, above, _) ← Act.ofExcept (view "config_key_for" t)
  let s ← Act.read id
  Act.ofExcept (s.keyIn root above element names)

/-- The flat configuration of a view, for one who asks it for `part`. -/
def flatOf (part : String) (config : Thing) : Step Flat := do
  let s ← Act.read id
  Act.ofExcept ((s.givenFlat config).get part)

/-- What is meant to be the configuration of a view has this part, whatever it then makes of it. -/
def checkPart (has : Thing → Bool) (part : String) (config : Thing) : Step Unit :=
  if has config then pure () else throw (config.lacking part)

/-- Stores a value of an option through a view. Names that make a key are texts. -/
def viewSet (root : Thing) (above : String) (config option : Thing) (value : Value)
    (names : List Value) : Step Unit := do
  let s ← Act.read id
  let _ ← Act.ofExcept (s.keyIn root above option names)
  checkPart Thing.isWritable "config_set" config
  let o ← Session.option "option_serialize" option
  let _ ← Act.ofExcept (serialize o value)
  let c ← flatOf "config_set" config
  let w : View := ⟨← node "namespace" root, above⟩
  setFlat (flatNumber config) (← Act.ofExcept (w.set c o value (names.filterMap Value.text?)))

/-- The value of an option in a view. -/
def viewGet (root : Thing) (above : String) (config option : Thing) (names : List Value) :
    Step Value := do
  checkPart Thing.isConfiguration "config_get" config
  let s ← Act.read id
  let _ ← Act.ofExcept (s.keyIn root above option names)
  let c ← flatOf "config_get" config
  let w : View := ⟨← node "namespace" root, above⟩
  Act.ofExcept (w.getAt c (← node "namespace" option) (names.filterMap Value.text?))

/-- The configuration that a view holds. -/
def viewApplication (t : Thing) : Step Application := do
  let (root, above, config) ← Act.ofExcept (view "config_to_application_configuration" t)
  let w : View := ⟨← node "namespace" root, above⟩
  Act.ofExcept (w.toApplication (← flatOf "config_keys" config))

/-- The root of a view. -/
def viewRoot (t : Thing) : Step String := do
  let (root, _) ← Act.ofExcept (view "root" t)
  Act.read fun s => s.plain root

/-! ## Configurations of any sort -/

/-- Whether a value is a key of a configuration, or is held by another value. Settings hold their
entries. -/
def contains (t : Thing) (key : Value) : Step Bool := do
  match t with
  | .application a => Act.ofExcept (a.contains key)
  | .flat number =>
    let c ← Act.read (·.flatAt number)
    return (← Act.ofExcept key.keyText?).any c.contains
  | .value v => Act.ofExcept (v.holds key)
  | .settings s => return key.isIn (s.entries.map fun e => .tuple [.text e.1, e.2])
  | t => throw (.shape (.notIterable t.typeName))

/-- **The value of an option** in a configuration of an application, or in a view. A flat
configuration takes what is given for a key, and a name for what stands for the missing. -/
def get (t option : Thing) (names : List Value) : Step Value := do
  match t with
  | .application a =>
    let n ← placed option
    Act.ofExcept (do a.getAt n (← textNames n.site.way names))
  | .view root above config => viewGet root above config option names
  | .flat number =>
    if 1 < names.length then
      throw (.shape (.tooManyArguments "EngineConfiguration.config_get" 2 3 (names.length + 2)))
    else
      let c ← Act.read (·.flatAt number)
      let found ← match option with
        | .value key => Act.ofExcept (lookUp c key)
        | _ => pure none
      return ((found.map FlatText.value).orElse fun _ => names.head?).getD .none
  | t => throw (t.lacking "config_get")

/-- What stands under a key in a flat configuration. One of another sort takes the key for an option,
which it is not. -/
def getText (t : Thing) (key : Value) : Step (Option FlatText) := do
  match t with
  | .flat number => Act.ofExcept (lookUp (← Act.read (·.flatAt number)) key)
  | t =>
    let _ ← get t (.value key) []
    return none

/-- **Stores a value** of an option through a view. A flat configuration takes what is given for a
key. -/
def set (t option : Thing) (value : Value) (names : List Value) : Step Unit := do
  match t with
  | .view root above config => viewSet root above config option value names
  | .flat _ =>
    if !names.isEmpty then
      throw (.shape (.tooManyArguments "EngineConfiguration.config_set" 3 3 (names.length + 3)))
    let _ ← change "config_set" t fun c =>
      match option with
      | .value key => c.setValue key value
      | _ => .error (.config .improperFlatKey)
  | t => throw (t.lacking "config_set")

/-- Stores a text. -/
def setText (t : Thing) (key value : Value) : Step Flat := do
  set t (.value key) value []
  flat "config_as_dict" t

/-- The entries inside a scope. -/
def subset (app scope : Thing) (names : List Value) : Step (List (String × Value)) := do
  let a ← use Thing.application? "config_get_subset" app
  let n ← placed scope
  Act.ofExcept (do a.subset n (← textNames n.site.way names))

/-- A mapping, flattened below a key. What does not stand for true is no key. -/
def flattened (values parent : Value) : Except Failure (Table String Value) := do
  flatten (← values.entries) (if parent.truth then parent.plain else "")

/-! ## Merges -/

/-- Whether a configuration and its root come together. -/
def pairing (app root : Thing) : Step Unit := do
  let s ← Act.read id
  Act.ofExcept (checkPairing (app.given Thing.application?) (s.givenNode root))

/-- **Merges a configuration** into one of an engine. There is a view unless the job has none. -/
def copy (app root config : Thing) (keys : Keys) : Step (Option Thing × Flat) := do
  let s ← Act.read id
  let (r, merged) :=
    (merge (app.given Thing.application?) (s.givenNode root) keys).on (s.givenFlat config)
  if let .this c := merged then setFlat (flatNumber config) c
  let w ← Act.ofExcept r
  return (w.map fun w => .view root w.above config, ← Act.ofExcept (merged.get "config_as_dict"))

/-! ## Settings -/

/-- The settings that a thing is; those of empty surroundings, if it does not stand for true. -/
def settings (s : Session) (t : Thing) : Except Failure Settings :=
  match t, s.truth t, Settings.load none ⟨[], none⟩ with
  | .settings s, _, _ => .ok s
  | _, false, .ok s => .ok s
  | t, _, _ => .error (t.lacking "scan_local_executor")

/-- **Starts from settings**: a runner on the engine that they ask for, the name of that, and the
configuration that jobs start with. -/
def bootstrap (t : Thing) : Step (Thing × String × Thing × Flat) := do
  let s ← Act.ofExcept (Session.settings (← Act.read id) t)
  let e ← Act.ofExcept s.engine
  let c ← Act.ofExcept s.configuration
  return (.runner (.localEngine e), e.name, ← newFlat c, c)

end ScanJobs.Script.Session
