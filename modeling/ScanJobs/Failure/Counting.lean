import ScanJobs.Failure.Kind
import ScanJobs.Number.Numeral
import ScanJobs.Value.Printer

/-! # Failures of counting
-/

namespace ScanJobs

/-- Why a count is refused. -/
inductive CountFault where
  /-- A text or bytes that spell no integer. -/
  | misspelled (value : Value) (fault : Numeral.Fault)
  | nan
  | infinite
  /-- A value of a type that has no integers. -/
  | notNumeric (typeName : String)
  /-- A name that is none of the standard metrics. -/
  | unknownMetric (name : String)

namespace CountFault

/-- The kind of the failure. -/
def kind : CountFault → Failure.Kind
  | .misspelled .. | .nan | .unknownMetric _ => .value
  | .infinite => .overflow
  | .notNumeric _ => .type

/-- The start of what messages show of a value. -/
def excerpt (v : Value) : String :=
  String.ofList (v.display.toList.take 200)

/-- What is wrong with what a value spells. -/
def spellingMessage (v : Value) : Numeral.Fault → String
  | .malformed => "invalid literal for int() with base 10: " ++ excerpt v
  | .tooLong digits =>
    "Exceeds the limit (" ++ toString Numeral.maxDigits ++
      " digits) for integer string conversion: value has " ++ toString digits ++
      " digits; use sys.set_int_max_str_digits() to increase the limit"

/-- What is wrong. -/
def message : CountFault → String
  | .misspelled v f => spellingMessage v f
  | .nan => "cannot convert float NaN to integer"
  | .infinite => "cannot convert float infinity to integer"
  | .notNumeric typeName =>
    "int() argument must be a string, a bytes-like object or a real number, not " ++
      Text.quoted typeName
  | .unknownMetric name => "unknown standard scan metric=" ++ name

end CountFault

end ScanJobs
