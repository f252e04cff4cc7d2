import ScanJobs.OptionType.Accept
import ScanJobs.Value.Printer
import ScanJobs.Value.Order
import ScanJobs.Text.Blank
import ScanJobs.Text.Split

/-! # The flat form

Engines store every option as text. `unflatten` takes a sequence given as text apart at its commas;
the pieces are stripped and blank ones dropped. `flatten` writes a value of an option: truth values
in lower case, sequences with commas and sets in ascending order, all else in plain form. In which order
a set hands out its items decides which two of them are found not to compare first.
-/

namespace ScanJobs.OptionType

open ScanJobs.Text

/-- The items of a sequence in flat form. -/
def pieces (s : String) : List String :=
  ((split ',' s).filter fun p => !isBlank p).map strip

/-- A text for a sequence type, taken apart; every other value as it is. -/
def unflatten (τ : OptionType) (v : Value) : Value :=
  match τ.isSequence, v.text? with
  | true, some s => .list ((pieces s).map .text)
  | _, _ => v

/-- Why a value has no flat form. -/
inductive Shapeless where
  /-- The items of a set cannot be put in order. -/
  | unsortable (fault : Value.Incomparable)
  /-- An integer has too many digits. -/
  | tooLong
deriving DecidableEq, Repr

/-- The items in flat form. -/
def flattenItems (xs : List Value) : String :=
  join ',' (xs.map Value.plain)

/-- The items in flat form, if all can be written. -/
def writeItems (xs : List Value) : Except Shapeless String :=
  if xs.all Value.isStorable then .ok (flattenItems xs) else .error .tooLong

/-- The items of a set in ascending order, taken up in the order in which the set hands them out. -/
def sortItems (l : Value.Listing) (xs : List Value) : Except Shapeless (List Value) :=
  match Value.sorted (l.of xs) with
  | .ok ys => .ok ys
  | .error f => .error (.unsortable f)

/-- **A value in flat form**, where sets hand out their items in the given order. A set has none if its
items cannot be compared, and no value has one if an integer in it is too long. -/
def flattenIn (l : Value.Listing) (v : Value) : Except Shapeless String :=
  match v with
  | .bool b => .ok (if b then "true" else "false")
  | .list xs | .tuple xs => writeItems xs
  | .set xs | .frozenset xs => do writeItems (← sortItems l xs)
  | v => if v.isStorable then .ok v.plain else .error .tooLong

/-- A value in flat form. -/
def flatten (v : Value) : Except Shapeless String :=
  flattenIn .textsFirst v

end ScanJobs.OptionType
