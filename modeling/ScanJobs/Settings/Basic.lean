import ScanJobs.Table
import ScanJobs.Number.Double
import ScanJobs.Text.Blank

/-! # Settings

What a runner can be told before it starts: the pool in which the local engine runs tasks, how many
run at once, how often a waiting caller looks whether to go on, how processes are started, and texts
that every configuration of the engine starts with. All settings are in range.
-/

namespace ScanJobs

/-- What tasks run in. -/
inductive Pool where
  | thread
  | process
deriving DecidableEq, Repr

/-- How the processes of a pool are started. -/
inductive StartMethod where
  | fork
  | spawn
  | forkserver
deriving DecidableEq, Repr

namespace Pool

/-- The name of the pool. -/
def name : Pool → String
  | .thread => "thread"
  | .process => "process"

/-- The pool of this name. -/
def ofName? (s : String) : Option Pool :=
  [Pool.thread, .process].find? (·.name = s)

end Pool

namespace StartMethod

/-- The name of the method. -/
def name : StartMethod → String
  | .fork => "fork"
  | .spawn => "spawn"
  | .forkserver => "forkserver"

/-- The method of this name. -/
def ofName? (s : String) : Option StartMethod :=
  [StartMethod.fork, .spawn, .forkserver].find? (·.name = s)

end StartMethod

/-- Settings in range. -/
structure Settings where
  pool : Pool
  maxWorkers : Int
  poll : Double
  start : Option StartMethod
  properties : Table String String
  maxWorkers_pos : 1 ≤ maxWorkers
  poll_pos : poll.isPositive = true
  proper : ∀ key ∈ properties.keys, Text.isBlank key = false ∧ Text.strip key = key

namespace Settings

/-- What is wrong with a setting. -/
inductive FaultType where
  | literal
  | intParsing
  | intFromFloat
  | intType
  | finiteNumber
  | intParsingSize
  | greaterThanEqual
  | floatParsing
  | floatType
  | greaterThan
  | dictType
  | stringType
  | stringUnicode
  | value
deriving DecidableEq, Repr

/-- The label in reports. -/
def FaultType.label : FaultType → String
  | .literal => "literal_error"
  | .intParsing => "int_parsing"
  | .intFromFloat => "int_from_float"
  | .intType => "int_type"
  | .finiteNumber => "finite_number"
  | .intParsingSize => "int_parsing_size"
  | .greaterThanEqual => "greater_than_equal"
  | .floatParsing => "float_parsing"
  | .floatType => "float_type"
  | .greaterThan => "greater_than"
  | .dictType => "dict_type"
  | .stringType => "string_type"
  | .stringUnicode => "string_unicode"
  | .value => "value_error"

/-- What is wrong, and where: the name of the setting and the way into its value. -/
structure Fault where
  location : List String
  type : FaultType
deriving DecidableEq, Repr

/-- Why there are no settings. -/
inductive Refusal where
  /-- A name of an argument is no text. -/
  | unnamed
  /-- A text that should be JSON is not; the source that gave it. -/
  | unreadable (setting source : String)
  /-- Settings out of range, found while they were loaded from the surroundings, or given. -/
  | outOfRange (loaded : Bool) (faults : List Fault)
deriving DecidableEq, Repr

namespace Refusal

/-- The label of the refusal in reports. -/
def label : Refusal → String
  | .unnamed => "TypeError"
  | .unreadable .. => "SettingsError"
  | .outOfRange true _ => "SettingsLoadError"
  | .outOfRange false _ => "ValidationError"

/-- What is wrong, unless there is more than one thing. -/
def message? : Refusal → Option String
  | .unnamed => some "keywords must be strings"
  | .unreadable setting source =>
    some ("error parsing value for field \"" ++ setting ++ "\" from source \"" ++ source ++ "\"")
  | .outOfRange .. => none

/-- All values out of range. -/
def faults : Refusal → List Fault
  | .outOfRange _ faults => faults
  | _ => []

end Refusal

end Settings

end ScanJobs
