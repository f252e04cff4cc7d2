import ScanJobs.Value.Basic

/-! # Option types

The types that a configuration option may declare.
-/

namespace ScanJobs

/-- The containers of a sequence type. -/
inductive Shape where
  | list
  | tuple
  | set
  | frozenset
deriving DecidableEq, Repr

/-- The type of an option. -/
inductive OptionType where
  | any
  | text
  | integer
  | float
  | boolean
  /-- A member of an enumeration. -/
  | member (e : Enumeration)
  /-- One of some texts. -/
  | literal (choices : List String)
  /-- Any number of items of one type. -/
  | sequence (shape : Shape) (item : OptionType)
  /-- One item for each type. -/
  | record (items : List OptionType)
  | optional (type : OptionType)
  | union (first second : OptionType)
  | map (key value : OptionType)
deriving Repr, Inhabited

namespace OptionType

/-- A value of the type is several items, which the flat form separates by commas. -/
def isSequence : OptionType → Bool
  | .sequence _ _ | .record _ => true
  | _ => false

end OptionType

/-- The container with these items. -/
def Shape.wrap : Shape → List Value → Value
  | .list, xs => .list xs
  | .tuple, xs => .tuple xs
  | .set, xs => .set (Value.setItems xs)
  | .frozenset, xs => .frozenset (Value.setItems xs)

/-- A container of this shape does not hold lists, sets or maps. -/
def Shape.isSet : Shape → Bool
  | .set | .frozenset => true
  | _ => false

end ScanJobs
