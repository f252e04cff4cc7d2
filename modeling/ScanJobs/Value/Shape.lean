import ScanJobs.Failure.Basic

/-! # Values of the sort that is meant

What a caller gives may be a value of any sort. Each function here takes a value for what it is meant
to be, or fails as one does who asks it for a part that it lacks.
-/

namespace ScanJobs.Value

/-- The failure of one who asks a value for a part that it lacks. -/
def lacking (v : Value) (part : String) : Failure :=
  .shape (.lacks v.typeName part)

/-- The entries of a map. -/
def entries : Value → Except Failure (List (Value × Value))
  | .map es => .ok es
  | v => .error (v.lacking "items")

/-- The entries of a map. What does not stand for true has none. -/
def entriesIfAny (v : Value) : Except Failure (List (Value × Value)) :=
  if v.truth then v.entries else .ok []

/-- The text that a value is, for one who asks it for `part`. -/
def textFor (part : String) (v : Value) : Except Failure String :=
  v.text?.elim (.error (v.lacking part)) .ok

/-- The value, if it can be a key. -/
def asKey (v : Value) : Except Failure Value :=
  v.unhashable?.elim (.ok v) fun u => .error (.shape (.unhashable u.typeName))

/-- The text that a value is, if it can be a key at all. -/
def keyText? (v : Value) : Except Failure (Option String) :=
  v.asKey.map Value.text?

/-- The value, if it can be an item of a set. A set stands for a frozen one here. -/
def asItem : Value → Except Failure Value
  | .set xs => .ok (.frozenset xs)
  | v => v.asKey

/-- The units stand in one piece in a row of others. -/
def occurs {α : Type} [BEq α] (part : List α) : List α → Bool
  | [] => part.isEmpty
  | x :: xs => part.isPrefixOf (x :: xs) || occurs part xs

/-- Whether bytes hold a value: other bytes in one piece, or a number for one of them. -/
def bytesHold (bs : List UInt8) (v : Value) : Except Failure Bool :=
  match v, v.integer? with
  | .bytes part, _ => .ok (occurs part bs)
  | _, some n =>
    if 0 ≤ n ∧ n < 256 then .ok (bs.contains n.toNat.toUInt8) else .error (.shape .noByte)
  | v, .none => .error (.shape (.notInBytes v.typeName))

/-- **Whether a value holds another**: under this key, as an item, or as a part in one piece. -/
def holds (whole v : Value) : Except Failure Bool :=
  match whole, whole.text? with
  | _, some s =>
    match v.text? with
    | some part => .ok (occurs part.toList s.toList)
    | .none => .error (.shape (.notInText v.typeName))
  | .map es, _ => v.asKey.map fun k => (valueAt? k es).isSome
  | .set xs, _ | .frozenset xs, _ => v.asItem.map fun x => isIn x xs
  | .list xs, _ | .tuple xs, _ => .ok (isIn v xs)
  | .bytes bs, _ => bytesHold bs v
  | w, .none => .error (.shape (.notIterable w.typeName))

end ScanJobs.Value
