import ScanJobs.OptionType.Basic
import ScanJobs.Number.Numeral
import ScanJobs.Text.Utf8

/-! # Accepting values

`accept τ v` is the value of type `τ` that `v` stands for, or the number of faults found: one for
each place of `v` that does not fit. Values of the type itself are taken as they are (`any` takes
everything), others are converted where no information is lost: numbers and truth values may be
written as text, texts as bytes, sequences may come in any container. A member of an enumeration
stands for its payload where a text is meant, and also, as it is, where an integer is.
-/

namespace ScanJobs.OptionType

open ScanJobs.Text

/-- A value, or the number of faults. -/
abbrev Acceptance (α : Type) := Except Nat α

/-- One fault. -/
def fault {α : Type} : Acceptance α :=
  .error 1

/-- The value if there is one, else one fault. -/
def required {α : Type} : Option α → Acceptance α
  | some a => .ok a
  | none => fault

/-- Both values, or all faults. -/
def both {α β : Type} : Acceptance α → Acceptance β → Acceptance (α × β)
  | .ok a, .ok b => .ok (a, b)
  | .error m, .error n => .error (m + n)
  | .error m, .ok _ => .error m
  | .ok _, .error n => .error n

/-- All values, or all faults. -/
def all {α : Type} : List (Acceptance α) → Acceptance (List α)
  | [] => .ok []
  | a :: as => (both a (all as)).map fun p => p.1 :: p.2

/-! ## Types without parts -/

/-- What a value has written: a text, or bytes that encode one. -/
def writing? : Value → Option String
  | .bytes bs => decodeUtf8? bs
  | v => v.text?

/-- The integer that a double is, if it lies strictly between `-2 ^ 63` and `2 ^ 63`. -/
def integerOfDouble? (x : Double) : Option Int :=
  match x.number with
  | .dyadic m e =>
    let n := Number.truncate m e
    if Number.isIntegral m e && n.natAbs < Number.twoTo 63 then some n else none
  | _ => none

/-- The integer that a value stands for. -/
def integerOf? (v : Value) : Option Int :=
  match v with
  | .float x => integerOfDouble? x
  | _ => v.integer?.orElse fun _ => (writing? v).bind fun s => (Numeral.integer s).toOption

/-- What a value stands for where an integer is meant. The payload of a member that is not
transparent is taken unconverted. -/
def integral? : Value → Option Value
  | .member ⟨_, _, payload, false⟩ => some payload.value
  | v => (integerOf? v).map .int

/-- The text that a value stands for. -/
def textOf? : Value → Option String
  | .member m => some m.payload.plain
  | v => writing? v

/-- The nearest double to an integer that is not too large for one. -/
def doubleOfInt? (n : Int) : Option Double :=
  let x := Double.ofInt n
  if x.exponent = 2047 then none else some x

/-- The double that a value stands for. -/
def doubleOf? (v : Value) : Option Double :=
  match v with
  | .float x => some x
  | _ =>
    match v.integer? with
    | some n => doubleOfInt? n
    | none => (writing? v).bind Numeral.decimal?

/-- The words for a truth value, in letters of either case. -/
def truthOfWord? (s : String) : Option Bool :=
  let word := String.ofList (Numeral.lowerAscii s.toList)
  if word ∈ ["0", "off", "f", "false", "n", "no"] then some false
  else if word ∈ ["1", "on", "t", "true", "y", "yes"] then some true
  else none

/-- The truth value of zero and one. -/
def truthOfInt? (n : Int) : Option Bool :=
  if n = 0 then some false else if n = 1 then some true else none

/-- The truth value that a value stands for. -/
def truthOf? (v : Value) : Option Bool :=
  match v with
  | .float x => (integerOfDouble? x).bind truthOfInt?
  | _ =>
    match v.integer? with
    | some n => truthOfInt? n
    | none => (writing? v).bind truthOfWord?

/-- The payload that a value stands for in an enumeration: as it is, or converted if the enumeration
is transparent. -/
def payloadOf? (e : Enumeration) (v : Value) : Option Payload :=
  match if e.transparent then writing? v else v.text? with
  | some s => if (e.ofPayload? (.text s)).isSome then some (.text s) else fallback
  | none => fallback
where
  fallback : Option Payload :=
    if e.transparent then (integerOf? v).map .int
    else match v with
      | .int n => some (.int n)
      | _ => none

/-- The member that a value is or stands for. -/
def memberOf? (e : Enumeration) (v : Value) : Option Member :=
  match v with
  | .member m => if m.family = e.family then some m else converted
  | _ => converted
where
  converted : Option Member :=
    (payloadOf? e v).bind e.ofPayload?

/-- The choice that a value is. -/
def choiceOf? (choices : List String) (v : Value) : Option String :=
  v.text?.filter (· ∈ choices)

/-! ## All types -/

/-- The value is of the type already, so that a union takes it before any conversion. -/
def isExact : OptionType → Value → Bool
  | .text, .text _ => true
  | .integer, .int _ => true
  | .float, .float _ => true
  | .boolean, .bool _ => true
  | .member e, .member m => m.family == e.family
  | .literal choices, .text s => s ∈ choices
  | .optional _, .none => true
  | .optional τ, v => isExact τ v
  | .union τ₁ τ₂, v => isExact τ₁ v || isExact τ₂ v
  | _, _ => false

/-- The values of each type. -/
theorem isExact_iff {τ : OptionType} {v : Value} :
    isExact τ v = true ↔
      match τ with
      | .text => ∃ s, v = .text s
      | .integer => ∃ n, v = .int n
      | .float => ∃ x, v = .float x
      | .boolean => ∃ b, v = .bool b
      | .member e => ∃ m, v = .member m ∧ m.family = e.family
      | .literal choices => ∃ s ∈ choices, v = .text s
      | .optional τ => v = .none ∨ isExact τ v = true
      | .union τ₁ τ₂ => isExact τ₁ v = true ∨ isExact τ₂ v = true
      | _ => False := by
  cases τ with
  | union τ₁ τ₂ => rw [isExact, Bool.or_eq_true]
  | _ => cases v <;> simp [isExact]

/-- An item of a set must not be a list, a set or a map. -/
def itemFor (shape : Shape) (v : Value) : Acceptance Value :=
  if shape.isSet && !v.isHashable then fault else .ok v

mutual

/-- **The value of the type that a value stands for.** -/
def accept : OptionType → Value → Acceptance Value
  | .any, v => .ok v
  | .text, v => (required (textOf? v)).map .text
  | .integer, v => required (integral? v)
  | .float, v => (required (doubleOf? v)).map .float
  | .boolean, v => (required (truthOf? v)).map .bool
  | .member e, v => (required (memberOf? e v)).map .member
  | .literal choices, v => (required (choiceOf? choices v)).map .text
  | .sequence shape τ, v =>
    match v.items? with
    | some xs => (all (xs.map fun x => accept τ x >>= itemFor shape)).map shape.wrap
    | none => fault
  | .record τs, v =>
    match v.items? with
    | some xs => if τs.length < xs.length then fault else (acceptEach τs xs).map .tuple
    | none => fault
  | .optional _, .none => .ok .none
  | .optional τ, v => accept τ v
  | .union τ₁ τ₂, v =>
    if !isExact τ₁ v && isExact τ₂ v then accept τ₂ v
    else match accept τ₁ v with
      | .ok w => .ok w
      | .error m => (accept τ₂ v).mapError (m + ·)
  | .map κ τ, v =>
    match v with
    | .map es =>
      (all (es.map fun e => both (accept κ e.1) (accept τ e.2))).map fun es => .map (Value.mapEntries es)
    | _ => fault

/-- One value for each type; a missing one is a fault. -/
def acceptEach : List OptionType → List Value → Acceptance (List Value)
  | [], _ => .ok []
  | _ :: τs, [] => (both (fault : Acceptance Value) (acceptEach τs [])).map fun p => p.1 :: p.2
  | τ :: τs, x :: xs => (both (accept τ x) (acceptEach τs xs)).map fun p => p.1 :: p.2

end

theorem accept_optional {τ : OptionType} {v : Value} (h : v ≠ .none) :
    accept (.optional τ) v = accept τ v := by
  rw [accept]
  exact h

end ScanJobs.OptionType
