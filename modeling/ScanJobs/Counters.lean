import ScanJobs.Act
import ScanJobs.Table
import ScanJobs.Number.Numeral
import ScanJobs.Text.Utf8
import ScanJobs.Value.Shape

/-! # Counters

Tasks count under two names, a group and a name within it. A counter starts at zero. What is added
may be any value that stands for an integer. `value` is what counters mean: opening a group does not
change it (`value_openGroup`), and adding changes it at one place (`value_add`).
-/

namespace ScanJobs

/-- Counters by group and name. -/
structure Counters where
  groups : Table String (Table String Int)

/-- Counters as they come from elsewhere. -/
abbrev CounterGroups := List (String × List (String × Value))

namespace Counters

/-- No counters. -/
def empty : Counters := ⟨Table.empty⟩

instance : Inhabited Counters := ⟨empty⟩

/-- **The integer that a value stands for**: a number without its fraction, or the number that a
text or bytes spell. -/
def integerOf (v : Value) : Except Failure Int :=
  match v with
  | .float x =>
    match x.number with
    | .dyadic m e => .ok (Number.truncate m e)
    | .infinite _ => .error (.count .infinite)
    | .nan => .error (.count .nan)
  | .bytes bs => spelled (Numeral.countOfBytes (Text.latin1 bs))
  | _ =>
    match v.integer?, v.text? with
    | some n, _ => .ok n
    | none, some s => spelled (Numeral.countOfText s)
    | none, none => .error (.count (.notNumeric v.typeName))
where
  spelled (r : Except Numeral.Fault Int) : Except Failure Int :=
    r.mapError fun f => .count (.misspelled v f)

/-- The counters of a group. -/
def group (c : Counters) (name : String) : Table String Int :=
  (c.groups.get? name).getD Table.empty

/-- **The value of a counter.** -/
def value (c : Counters) (group name : String) : Int :=
  ((c.group group).get? name).getD 0

/-- The counters with the group, if need be as an empty one. -/
def openGroup (c : Counters) (group : String) : Counters :=
  ⟨c.groups.insert group (c.group group)⟩

/-- Adds an integer to a counter. -/
def add (c : Counters) (group name : String) (n : Int) : Counters :=
  ⟨c.groups.insert group ((c.group group).insert name (c.value group name + n))⟩

/-- **Adds what a value stands for to a counter.** The group is there afterwards even if the value
stands for no integer. -/
def increment (group name : String) (delta : Value) : Act Counters Unit :=
  if Text.isBlank group || Text.isBlank name then Act.ofExcept (.error (.blank "counter group and name"))
  else do
    Act.change (·.openGroup group)
    let n ← Act.ofExcept (integerOf delta)
    Act.change (·.add group name n)

/-- The byte is a blank. -/
def isBlankByte (b : UInt8) : Bool :=
  b = 32 || (9 ≤ b && b ≤ 13)

/-- A value that is to name a counter, which must be a text or bytes, is not blank. -/
def checkName (name : Value) : Except Failure Unit := do
  let blank ← match name with
    | .bytes bs => pure (bs.all isBlankByte)
    | v => (v.textFor "strip").map Text.isBlank
  if blank then .error (.blank "counter group and name") else .ok ()

/-- Adds to a counter whose names may be values of any sort. What is counted under bytes is under no
text. -/
def incrementAt (group name delta : Value) : Act Counters Unit := do
  Act.ofExcept (checkName group)
  Act.ofExcept (checkName name)
  match group.text?, name.text? with
  | some g, some n => increment g n delta
  | some g, none =>
    Act.change (·.openGroup g)
    let _ ← Act.ofExcept (integerOf delta)
  | none, _ =>
    let _ ← Act.ofExcept (integerOf delta)

/-- The value of a counter whose names may be values of any sort. -/
def valueAt (c : Counters) (group name : Value) : Except Failure Int := do
  match ← group.keyText?, ← name.keyText? with
  | some g, some n => return c.value g n
  | _, _ => return 0

/-- **Adds other counters, one after the other.** -/
def merge (groups : CounterGroups) : Act Counters Unit :=
  groups.forM fun g => g.2.forM fun c => increment g.1 c.1 c.2

/-- Adds counters that a value describes, up to the first that is none. -/
def mergeValue (v : Value) : Act Counters Unit := do
  (← Act.ofExcept v.entries).forM fun g => do
    (← Act.ofExcept g.2.entries).forM fun c => incrementAt g.1 c.1 c.2

/-- All counters, as others take them. -/
def toGroups (c : Counters) : CounterGroups :=
  c.groups.entries.map fun g => (g.1, g.2.entries.map fun e => (e.1, .int e.2))

/-- All counters as a value: a map of groups to maps of names to integers. -/
def toValue (c : Counters) : Value :=
  .map (c.groups.entries.map fun g =>
    (.text g.1, .map (g.2.entries.map fun e => (.text e.1, .int e.2))))

/-! ## What the operations do to `value` -/

@[simp] theorem value_empty (group name : String) : empty.value group name = 0 := rfl

theorem group_set (c : Counters) (g g' : String) (t : Table String Int) :
    (Counters.mk (c.groups.insert g t)).group g' = if g = g' then t else c.group g' := by
  unfold group
  rw [Table.get?_insert]
  split <;> rfl

@[simp] theorem value_openGroup (c : Counters) (g group name : String) :
    (c.openGroup g).value group name = c.value group name := by
  unfold openGroup value
  rw [group_set]
  split
  · next h => rw [h]
  · rfl

theorem value_add (c : Counters) (g n group name : String) (k : Int) :
    (c.add g n k).value group name =
      c.value group name + if g = group ∧ n = name then k else 0 := by
  unfold add value
  rw [group_set]
  by_cases hg : g = group
  · subst hg
    by_cases hn : n = name
    · simp [Table.get?_insert, hn]
    · simp [Table.get?_insert, hn]
  · simp [hg]

end Counters

end ScanJobs
