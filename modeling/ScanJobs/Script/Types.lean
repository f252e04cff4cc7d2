import ScanJobs.OptionType.Basic

/-! # Types by name

The option types that scripts may declare, under short names, with three enumerations to try them on.
-/

namespace ScanJobs.Script

/-- A plain enumeration of texts. -/
def colors : Enumeration where
  family := "Color"
  transparent := false
  members := [("RED", .text "red"), ("GREEN", .text "green"), ("BLUE", .text "Blue Sky")]

/-- An enumeration of integers. -/
def levels : Enumeration where
  family := "Level"
  transparent := true
  members := [("LOW", .int 1), ("MID", .int 5), ("HIGH", .int 10)]

/-- An enumeration of texts whose members are texts themselves. -/
def modes : Enumeration where
  family := "Mode"
  transparent := true
  members := [("FAST", .text "fast"), ("SLOW", .text "slow")]

/-- The member of this full name: its family and its name with a point between. -/
def member? (fullName : String) : Option Member :=
  [colors, levels, modes].findSome? fun e =>
    (e.members.find? fun m => e.family ++ "." ++ m.1 = fullName).map e.member

/-- The option types by name. -/
def types : List (String × OptionType) := [
  ("str", .text), ("int", .integer), ("float", .float), ("bool", .boolean), ("any", .any),
  ("list", .sequence .list .any), ("tuple", .sequence .tuple .any), ("set", .sequence .set .any),
  ("frozenset", .sequence .frozenset .any), ("list[str]", .sequence .list .text),
  ("list[int]", .sequence .list .integer), ("list[float]", .sequence .list .float),
  ("list[bool]", .sequence .list .boolean),
  ("list[list[int]]", .sequence .list (.sequence .list .integer)),
  ("list[Color]", .sequence .list (.member colors)),
  ("list[Level]", .sequence .list (.member levels)), ("tuple[str,int]", .record [.text, .integer]),
  ("tuple[int,...]", .sequence .tuple .integer), ("set[str]", .sequence .set .text),
  ("set[int]", .sequence .set .integer), ("set[Color]", .sequence .set (.member colors)),
  ("set[float]", .sequence .set .float), ("frozenset[str]", .sequence .frozenset .text),
  ("frozenset[int]", .sequence .frozenset .integer), ("optional[int]", .optional .integer),
  ("optional[str]", .optional .text), ("optional[bool]", .optional .boolean),
  ("optional[list[str]]", .optional (.sequence .list .text)),
  ("union[int,str]", .union .integer .text), ("union[int,float]", .union .integer .float),
  ("dict[str,int]", .map .text .integer), ("literal[a,b]", .literal ["a", "b"]),
  ("Color", .member colors), ("Level", .member levels), ("Mode", .member modes)]

/-- The type of this name; a name that is none stands for any value. -/
def typeOf (name : String) : OptionType :=
  (types.lookup name).getD .any

end ScanJobs.Script
