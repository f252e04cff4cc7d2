import ScanJobs.Settings.Basic
import ScanJobs.Settings.Dotenv
import ScanJobs.Value.Json
import ScanJobs.Value.Printer
import ScanJobs.OptionType.Accept

/-! # Loading settings

Settings come from three sources: arguments, the environment and a file of variables. The first of
them that gives a setting wins; tables of properties are laid over each other key by key. Names are
compared without regard to case: of two variables of one name the later counts, of two arguments the
earlier. `load` reads the values and reports every one that is out of range.
-/

namespace ScanJobs.Settings

open Text

/-! ## Sources -/

/-- The name of the setting for the pool. -/
def poolName : String := "scan_local_executor"

/-- The name of the setting for the number of workers. -/
def workersName : String := "scan_local_max_workers"

/-- The name of the setting for the time between two looks. -/
def pollName : String := "scan_local_poll_interval_seconds"

/-- The name of the setting for the start of processes. -/
def startName : String := "scan_local_start_method"

/-- The name of the setting for properties. -/
def propertiesName : String := "scan_engine_properties"

/-- What a source gives for each setting. -/
abbrev Layer := Table String Value

/-- The letter in lower case. The sign for the kelvin counts as a letter too. -/
def lowerLetter (c : Char) : Char :=
  if c = '\u212a' then 'k' else c

/-- The text in lower case. -/
def lower (s : String) : String :=
  String.ofList ((Numeral.lowerAscii s.toList).map lowerLetter)

/-- The entries under names in lower case. -/
def byLowerName {α : Type} (entries : List (String × α)) : Table String α :=
  Table.ofList (entries.map fun e => (lower e.1, e.2))

/-- The arguments under their names, each of which must be a text. -/
def namedArguments (arguments : List (Value × Value)) : Except Refusal (List (String × Value)) :=
  arguments.mapM fun e => e.1.text?.elim (.error .unnamed) fun name => .ok (name, e.2)

/-- What the arguments give. -/
def layerOfArguments (arguments : List (Value × Value)) : Except Refusal Layer :=
  (namedArguments arguments).map fun named => byLowerName named.reverse

/-- The value that a variable gives: properties are written in JSON, where `null` gives none. -/
def variableValue (source name text : String) : Except Refusal (Option Value) :=
  if name = propertiesName then
    match Json.read? text with
    | none => .error (.unreadable name source)
    | some .none => .ok none
    | some v => .ok (some v)
  else .ok (some (.text text))

/-- What the variables of a source give. -/
def layerOfVariables (source : String) (bound : Table String (Option String)) :
    Except Refusal Layer :=
  [poolName, workersName, pollName, startName, propertiesName].foldlM
    (fun layer name =>
      match (bound.get? name).join with
      | none => .ok layer
      | some text => do
        match ← variableValue source name text with
        | some v => return layer.insert name v
        | none => return layer)
    Table.empty

/-- The upper value, unless both are maps: then the entries of the upper one are laid over those of
the lower one. -/
def layOver : Value → Value → Value
  | .map low, .map high => .map (high.foldl (fun es e => Value.putEntry e.1 e.2 es) low)
  | _, high => high

/-- The upper layer laid over the lower one. -/
def Layer.over (high low : Layer) : Layer :=
  high.entries.foldl
    (fun layer e =>
      layer.insert e.1 (match layer.get? e.1 with
        | some v => layOver v e.2
        | none => e.2))
    low

/-! ## Values in range -/

/-- The faults of one setting, if there is no value in range. -/
abbrev Checked (α : Type) := Except (List Fault) α

/-- The value, or one fault at the setting itself. -/
def check {α : Type} (name : String) (e : Except FaultType α) : Checked α :=
  e.mapError fun type => [⟨[name], type⟩]

/-- The value is a text or bytes, and so may have a number written. -/
def isWriting : Value → Bool
  | .bytes _ => true
  | v => v.text?.isSome

/-- The integer of a double. -/
def integerOfDouble (x : Double) : Except FaultType Int :=
  match x.number with
  | .dyadic m e =>
    if !Number.isIntegral m e then .error .intFromFloat
    else match OptionType.integerOfDouble? x with
      | some n => .ok n
      | none => .error .intParsingSize
  | _ => .error .finiteNumber

/-- The fault that a text is which spells no integer. -/
def spellingFault : Numeral.Fault → FaultType
  | .malformed => .intParsing
  | .tooLong _ => .intParsingSize

/-- The integer that a value spells. -/
def integerOfWriting (v : Value) : Except FaultType Int :=
  match OptionType.writing? v with
  | some s => (Numeral.integer s).mapError spellingFault
  | none => .error (if isWriting v then .intParsing else .intType)

/-- The integer that a value stands for. The payload of a member that is not transparent is taken
for one, but not for one of a size that can be told. -/
def integerOf (v : Value) : Except FaultType Int :=
  match v with
  | .float x => integerOfDouble x
  | .member ⟨_, _, payload, false⟩ => payload.value.integer?.elim (.error .intParsingSize) .ok
  | _ => v.integer?.elim (integerOfWriting v) .ok

/-- The double that a value stands for. -/
def doubleOf (v : Value) : Except FaultType Double :=
  match OptionType.doubleOf? v with
  | some x => .ok x
  | none => .error (if isWriting v then .floatParsing else .floatType)

/-- A choice by name: blanks around it and case do not count, and a blank text is no choice. -/
def normalizeChoice (v : Value) : Value :=
  match v.text? with
  | some s => if isBlank s then .none else .text (lower (strip s))
  | none => v

/-- The choice of this name. -/
def choice {α : Type} (ofName? : String → Option α) (v : Value) : Except FaultType α :=
  match v with
  | .text s => (ofName? s).elim (.error .literal) .ok
  | _ => .error .literal

/-- A choice that need not be made. -/
def optionalChoice {α : Type} (ofName? : String → Option α) (v : Value) :
    Except FaultType (Option α) :=
  match v with
  | .none => .ok none
  | v => (choice ofName? v).map some

/-- The pool of tasks. -/
def poolOf (layer : Layer) : Checked Pool :=
  match layer.get? poolName with
  | none => .ok .process
  | some v => check poolName (choice Pool.ofName? (normalizeChoice v))

/-- The number of tasks that run at once. -/
def workersOf (layer : Layer) : Checked { n : Int // 1 ≤ n } :=
  match layer.get? workersName with
  | none => .ok ⟨4, by decide⟩
  | some v => check workersName do
    let n ← integerOf v
    if h : 1 ≤ n then return ⟨n, h⟩ else .error .greaterThanEqual

/-- One half. -/
def half : Double := Double.ofParts false 1022 0

/-- How long a waiting caller waits before it looks again. -/
def pollOf (layer : Layer) : Checked { x : Double // x.isPositive = true } :=
  match layer.get? pollName with
  | none => .ok ⟨half, by decide⟩
  | some v => check pollName do
    let x ← doubleOf v
    if h : x.isPositive = true then return ⟨x, h⟩ else .error .greaterThan

/-- How processes are started. -/
def startOf (layer : Layer) : Checked (Option StartMethod) :=
  match layer.get? startName with
  | none => .ok none
  | some v => check startName (optionalChoice StartMethod.ofName? (normalizeChoice v))

/-- The name of a key in the place of a fault. -/
def keyName (key : Value) : String :=
  match key.text?, key.integer? with
  | some s, _ => s
  | none, some n => toString n
  | none, none => key.display

/-- The text that a value stands for. -/
def textOf (location : List String) (v : Value) : Checked String :=
  match OptionType.textOf? v with
  | some s => .ok s
  | none => .error [⟨location, if isWriting v then .stringUnicode else .stringType⟩]

/-- One property. -/
def propertyOf (entry : Value × Value) : Checked (String × String) :=
  let location := [propertiesName, keyName entry.1]
  match textOf (location ++ ["[key]"]) entry.1, textOf location entry.2 with
  | .ok k, .ok v => .ok (k, v)
  | .error fs, .ok _ => .error fs
  | .ok _, .error fs => .error fs
  | .error fs, .error gs => .error (fs ++ gs)

/-- All values, or all faults. -/
def checkAll {α : Type} : List (Checked α) → Checked (List α)
  | [] => .ok []
  | .ok a :: cs => (checkAll cs).map (a :: ·)
  | .error fs :: cs =>
    match checkAll cs with
    | .ok _ => .error fs
    | .error gs => .error (fs ++ gs)

/-- The table of properties, with stripped keys. -/
def propertyTable (entries : List (String × String)) : Table String String :=
  Table.ofList ((Table.ofList entries).entries.map fun e => (strip e.1, e.2))

theorem strip_of_mem_propertyTable {entries : List (String × String)} {key : String}
    (h : key ∈ (propertyTable entries).keys) : strip key = key := by
  obtain ⟨e, he, rfl⟩ := List.mem_map.mp h
  obtain ⟨_, -, rfl⟩ := List.mem_map.mp (Table.mem_of_mem_ofList he)
  exact strip_strip

/-- The properties. None may have a blank key. -/
def propertiesOf (layer : Layer) :
    Checked { t : Table String String // ∀ key ∈ t.keys, isBlank key = false ∧ strip key = key } :=
  match layer.get? propertiesName with
  | none => .ok ⟨Table.empty, by simp [Table.keys, Table.empty]⟩
  | some (.map es) => do
    let given ← checkAll (es.map propertyOf)
    if h : ∀ key ∈ (propertyTable given).keys, isBlank key = false then
      return ⟨propertyTable given, fun key hkey => ⟨h key hkey, strip_of_mem_propertyTable hkey⟩⟩
    else .error [⟨[propertiesName], .value⟩]
  | some _ => .error [⟨[propertiesName], .dictType⟩]

/-- The faults found. -/
def faultsOf {α : Type} : Checked α → List Fault
  | .ok _ => []
  | .error fs => fs

/-- **The settings that a layer gives**, if all of them are in range. -/
def ofLayer (loaded : Bool) (layer : Layer) : Except Refusal Settings :=
  match poolOf layer, workersOf layer, pollOf layer, startOf layer, propertiesOf layer with
  | .ok pool, .ok workers, .ok poll, .ok start, .ok properties => .ok {
      pool
      maxWorkers := workers.1
      poll := poll.1
      start
      properties := properties.1
      maxWorkers_pos := workers.2
      poll_pos := poll.2
      proper := properties.2 }
  | pool, workers, poll, start, properties =>
    .error (.outOfRange loaded (faultsOf pool ++ faultsOf workers ++ faultsOf poll ++
      faultsOf start ++ faultsOf properties))

/-- **The settings by name**, with values that stand for them in a source. -/
def entries (s : Settings) : List (String × Value) :=
  [(poolName, .text s.pool.name), (workersName, .int s.maxWorkers), (pollName, .float s.poll),
    (startName, (s.start.map fun m => Value.text m.name).getD .none),
    (propertiesName, .map (s.properties.entries.map fun e => (.text e.1, .text e.2)))]

/-- What settings are loaded from: the variables of the environment, and the text of a file. -/
structure Surroundings where
  environment : List (String × String)
  file : Option String

/-- **Loads settings.** With arguments, the surroundings give only what these leave out. -/
def load (arguments : Option (List (Value × Value))) (around : Surroundings) :
    Except Refusal Settings := do
  let given ← layerOfArguments (arguments.getD [])
  let exported := byLowerName (around.environment.map fun e => (e.1, some e.2))
  let environment ← layerOfVariables "EnvSettingsSource" exported
  let bindings := (around.file.map (Dotenv.read (Table.ofList around.environment))).getD Table.empty
  let file ← layerOfVariables "DotEnvSettingsSource" (byLowerName bindings.entries)
  ofLayer arguments.isNone (Layer.over (Layer.over given environment) file)

end ScanJobs.Settings
