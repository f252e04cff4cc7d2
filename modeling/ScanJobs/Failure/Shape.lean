import ScanJobs.Failure.Kind

/-! # Failures of things of the wrong sort

A thing may lack a part that is asked of it, may be none to call or to use as a key, or may be called
with other arguments than it takes.
-/

namespace ScanJobs

/-- Why a thing does not do for what it is used as. -/
inductive ShapeFault where
  /-- A thing of the type has no such part. -/
  | lacks (typeName part : String)
  /-- A class has no such part. -/
  | classLacks (name part : String)
  /-- A thing of the type cannot be called. -/
  | notCallable (typeName : String)
  /-- A thing of the type holds nothing that could be looked for. -/
  | notIterable (typeName : String)
  /-- A value of the type cannot be a key. -/
  | unhashable (typeName : String)
  /-- A call without some of the arguments that it must have. -/
  | missingArguments (function : String) (names : List String)
  /-- A call with more arguments than are taken, of which some need not be given. -/
  | tooManyArguments (function : String) (needed taken given : Nat)
  /-- Something of the type is to be put before a text. -/
  | notJoinable (typeName : String)
  /-- A call with an argument of a name that is not known. -/
  | unexpectedArgument (function name : String)
  /-- An item of the type stands among texts that are to be joined. -/
  | noText (index : Nat) (typeName : String)
  /-- Something of the type is looked for in a text. -/
  | notInText (typeName : String)
  /-- Something of the type is looked for in bytes. -/
  | notInBytes (typeName : String)
  /-- A number that is no byte is looked for in bytes. -/
  | noByte
deriving DecidableEq

namespace ShapeFault

/-- The kind of the failure. -/
def kind : ShapeFault → Failure.Kind
  | .lacks .. | .classLacks .. => .attribute
  | .noByte => .value
  | _ => .type

/-- A name between quotes. -/
def marked (name : String) : String :=
  "'" ++ name ++ "'"

/-- Names between quotes, the last after a conjunction. -/
def enumerated : List String → String
  | [] => ""
  | [a] => marked a
  | [a, b] => marked a ++ " and " ++ marked b
  | [a, b, c] => marked a ++ ", " ++ marked b ++ ", and " ++ marked c
  | a :: as => marked a ++ ", " ++ enumerated as

/-- A number of arguments. -/
def arguments (n : Nat) : String :=
  " positional argument" ++ if n = 1 then "" else "s"

/-- What is wrong. -/
def message : ShapeFault → String
  | .lacks typeName part => marked typeName ++ " object has no attribute " ++ marked part
  | .classLacks name part => "type object " ++ marked name ++ " has no attribute " ++ marked part
  | .notCallable typeName => marked typeName ++ " object is not callable"
  | .notIterable typeName => "argument of type " ++ marked typeName ++ " is not iterable"
  | .unhashable typeName => "unhashable type: " ++ marked typeName
  | .missingArguments function names =>
    function ++ "() missing " ++ toString names.length ++ " required" ++ arguments names.length ++
      ": " ++ enumerated names
  | .tooManyArguments function needed taken given =>
    function ++ "() takes " ++ (if needed = taken then "" else "from " ++ toString needed ++ " to ") ++
      toString taken ++ arguments taken ++ " but " ++ toString given ++
      (if given = 1 then " was" else " were") ++ " given"
  | .notJoinable "list" => "can only concatenate list (not \"str\") to list"
  | .notJoinable "tuple" => "can only concatenate tuple (not \"str\") to tuple"
  | .notJoinable typeName =>
    "unsupported operand type(s) for +: " ++ marked typeName ++ " and " ++ marked "str"
  | .unexpectedArgument function name =>
    function ++ "() got an unexpected keyword argument " ++ marked name
  | .noText index typeName =>
    "sequence item " ++ toString index ++ ": expected str instance, " ++ typeName ++ " found"
  | .notInText typeName =>
    marked "in <string>" ++ " requires string as left operand, not " ++ typeName
  | .notInBytes typeName => "a bytes-like object is required, not " ++ marked typeName
  | .noByte => "byte must be in range(0, 256)"

end ShapeFault

end ScanJobs
