import ScanJobs.Failure.Basic

/-! # Names of any sort

The user's names may be given as values of any sort, but only texts can be joined to a path.
`textNames` takes values for the names on a way, or tells why no path can be written with them.
-/

namespace ScanJobs.Script

open Schema

/-- Where a text would stand among the components of a way: the names of elements are not empty, nor
is this. -/
def nameMark : String := "_"

/-- The place of the first empty component. -/
def firstEmpty (components : List String) : Nat :=
  components.findIdx String.isEmpty

/-- Why no path can be written with names that are not all texts. Where the first of these stands on
the way is found by leaving it empty. -/
def namingFailure (way : List String → Except PathFault (List String)) (names : List Value) :
    Failure :=
  let found (v : Value) := if v.text?.isSome then nameMark else ""
  match way (names.map found) with
  | .ok cs =>
    let first := (names.find? fun v => v.text?.isNone).getD .none
    .shape (.noText (firstEmpty cs) first.typeName)
  | .error (.tooManyNames element _) =>
    .config (.path (.tooManyNames element (Value.display (.list names))))
  | .error f => .config (.path f)

/-- **The names as texts.** If some are none, it is said why there is no path with them along the
way. -/
def textNames (way : List String → Except PathFault (List String)) (names : List Value) :
    Except Failure (List String) :=
  match names.mapM Value.text? with
  | some ts => .ok ts
  | none => .error (namingFailure way names)

/-- **The path** along a way with names of any sort. -/
def pathAlong (way : List String → Except PathFault (List String)) (names : List Value) :
    Except Failure String := do
  let components ← (way (← textNames way names)).mapError fun f => Failure.config (.path f)
  return Text.join '.' components

end ScanJobs.Script
