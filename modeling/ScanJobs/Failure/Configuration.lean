import ScanJobs.Failure.Shape
import ScanJobs.Schema.Key
import ScanJobs.Value.Order

/-! # Failures of configurations

A failure that would show a value is another one if the value cannot be shown: that an integer has too
many digits.
-/

namespace ScanJobs

open Schema Text

/-- Why a schema or a configuration is refused. -/
inductive ConfigFault where
  /-- A declaration is refused. -/
  | declaration (fault : DeclarationFault)
  /-- An option does not accept a value. -/
  | unfit (fault : Unfit)
  /-- An option was left without a default. -/
  | noDefault
  /-- The items of a set cannot be put in order. -/
  | incomparable (fault : Value.Incomparable)
  /-- A value has an integer with too many digits to be written. -/
  | tooLong
  /-- A key leads nowhere. -/
  | strayKey (fault : KeyFault)
  /-- An element has no such path. -/
  | path (fault : PathFault)
  /-- An element has no such path below the root of a view. -/
  | misplaced (element : String) (fault : PathFault)
  /-- A key of a job's configuration leads to a scope. -/
  | keyOfScope (key : String) (scope : Site)
  /-- A key of a flat configuration leads to a scope. -/
  | flatKeyOfScope (key : String) (scope : Site)
  /-- A key of a mapping is no text, or blank. -/
  | improperKey (key : Value)
  /-- A key of a flat configuration is no text, or blank. -/
  | improperFlatKey
  /-- A value of a flat configuration is no text. -/
  | notText (key typeName : String)
  /-- There is a configuration, but no root. -/
  | rootNeeded
  /-- There is a root, but no configuration. -/
  | configurationNeeded (root : String)

namespace ConfigFault

/-- Why a value has no flat form. -/
def ofShapeless : OptionType.Shapeless → ConfigFault
  | .unsortable f => .incomparable f
  | .tooLong => .tooLong

/-- The kind of the failure. -/
def kind : ConfigFault → Failure.Kind
  | .declaration (.underOption _) | .noDefault => .attribute
  | .path .nothing => .index
  | .declaration (.unfitDefault u) | .unfit u => if u.value.isShowable then .configurationParse else .value
  | .strayKey _ | .misplaced .. | .keyOfScope .. | .flatKeyOfScope .. => .configurationParse
  | .declaration _ | .path _ | .improperKey _ | .improperFlatKey | .tooLong => .value
  | .incomparable _ | .notText .. => .type
  | .rootNeeded | .configurationNeeded _ => .configurationPairing

/-- The key at fault. -/
def key? : ConfigFault → Option String
  | .declaration (.unfitDefault u) | .unfit u =>
    if u.value.isShowable then some u.option.display else none
  | .strayKey f => some f.key
  | .misplaced element _ => some element
  | .keyOfScope key _ | .flatKeyOfScope key _ => some key
  | _ => none

/-- That an integer has too many digits to be written. -/
def tooLongMessage : String :=
  "Exceeds the limit (" ++ toString Numeral.maxDigits ++ " digits) for integer string conversion; " ++
    "use sys.set_int_max_str_digits() to increase the limit"

/-- A message that shows a value. -/
def showing (v : Value) (message : String) : String :=
  if v.isShowable then message else tooLongMessage

/-- What is wrong with a declaration. -/
def declarationMessage : DeclarationFault → String
  | .noScope => "namespace must not be None"
  | .name f => f.message
  | .underOption option =>
    (ShapeFault.lacks option.typeName "_namespace_register_child").message
  | .taken scope name =>
    "namespace [" ++ scope.display ++ "] already declares an element named " ++ name.text
  | .unfitDefault u => showing u.value u.message

/-- That a scope was found where an option was meant. -/
def scopeMessage (subject key : String) (scope : Site) : String :=
  subject ++ " key " ++ key ++ " resolves to namespace [" ++ scope.display ++ "], not an option"

/-- What is wrong. -/
def message : ConfigFault → String
  | .declaration f => declarationMessage f
  | .unfit u => showing u.value u.message
  | .noDefault => (ShapeFault.lacks "ConfigOption" "default").message
  | .incomparable f =>
    quoted f.sign ++ " not supported between instances of " ++ quoted f.left ++ " and " ++
      quoted f.right
  | .tooLong => tooLongMessage
  | .strayKey f => f.message
  | .path f | .misplaced _ f => f.message
  | .keyOfScope key scope => scopeMessage "Configuration" key scope
  | .flatKeyOfScope key scope => scopeMessage "Engine configuration" key scope
  | .improperKey k => showing k ("configuration keys must be non-blank strings: " ++ k.display)
  | .improperFlatKey => "key must be a non-blank string"
  | .notText key typeName =>
    "engine configuration values must be strings, got " ++ typeName ++ " for " ++ key
  | .rootNeeded => "Configuration root must be provided when configuration instance is provided"
  | .configurationNeeded root =>
    "Configuration instance must be provided when configuration root [" ++ root ++ "] is provided"

end ConfigFault

end ScanJobs
