import ScanJobs.Config.Merge
import ScanJobs.Proofs.Fallible
import ScanJobs.Proofs.Schema.Weaving

/-! # What is to be written for an entry

When an entry of a job's configuration can be written, and under which key: its key must lead to an
option, whose path below the prefix is the key in the flat configuration, and its value must have a
flat form (`writeFor_eq_ok_iff`). -/

namespace ScanJobs.Config

open Schema Text

theorem validate_eq_ok_iff {o : OptionRef} {v w : Value} :
    validate o v = .ok w ↔ o.accept v = .ok w := mapError_eq_ok_iff

/-- A value has a flat form if it is accepted and what it stands for has one. -/
theorem serializeIn_eq_ok_iff {l : Value.Listing} {o : OptionRef} {v : Value} {text : String} :
    serializeIn l o v = .ok text ↔
      ∃ w, validate o v = .ok w ∧ OptionType.flattenIn l w = .ok text := by
  rw [serializeIn, bind_eq_ok_iff]
  simp only [mapError_eq_ok_iff, validate_eq_ok_iff]

theorem serialize_eq_ok_iff {o : OptionRef} {v : Value} {text : String} :
    serialize o v = .ok text ↔
      ∃ w, validate o v = .ok w ∧ OptionType.flatten w = .ok text :=
  serializeIn_eq_ok_iff

theorem serializeIn_of_shapeless {l : Value.Listing} {o : OptionRef} {v w : Value}
    {f : OptionType.Shapeless} (hv : validate o v = .ok w) (hf : OptionType.flattenIn l w = .error f) :
    serializeIn l o v = .error (.config (.ofShapeless f)) := by
  have haccept : o.accept v = .ok w := validate_eq_ok_iff.mp hv
  rw [serializeIn, bind_eq_error_iff]
  exact .inr ⟨w, mapError_eq_ok_iff.mpr haccept, mapError_eq_error_iff.mpr ⟨f, hf, rfl⟩⟩

theorem View.keyFor_eq_ok_iff {w : View} {site : Site} {names : List String} {key : String} :
    w.keyFor site names = .ok key ↔
      ∃ path, site.pathFrom w.root.site names = .ok path ∧ w.above ++ "." ++ path = key := by
  unfold View.keyFor
  cases site.pathFrom w.root.site names with
  | error f => simp
  | ok path => simp

theorem Node.option?_eq_some_iff {n : Node} {o : OptionRef} :
    n.option? = some o ↔ o.site = n.site ∧ ∃ d, n.element = .option d o.type o.default := by
  obtain ⟨site, e⟩ := n
  obtain ⟨site', τ, default⟩ := o
  cases e with
  | scope umbrella d cs => simp [Node.option?]
  | option d τ' default' =>
    simp only [Node.option?, Option.some.injEq, OptionRef.mk.injEq, Element.option.injEq]
    constructor
    · rintro ⟨rfl, rfl, rfl⟩
      exact ⟨rfl, d, rfl, rfl, rfl⟩
    · rintro ⟨rfl, d', rfl, rfl, rfl⟩
      exact ⟨rfl, rfl, rfl⟩

/-- **An entry can be written** if its key leads to an option and its value has a flat form, which is
then written under the path of the option. -/
theorem writeFor_eq_ok_iff {w : View} {entry write : String × _} :
    writeFor w entry = .ok write ↔
      ∃ t o path text, w.root.parse entry.1 = .ok t ∧ t.option? = some o ∧
        t.site.pathFrom w.root.site t.names = .ok path ∧ serialize o entry.2 = .ok text ∧
        write = (w.above ++ "." ++ path, text) := by
  rw [writeFor, bind_eq_ok_iff]
  simp only [mapError_eq_ok_iff]
  refine exists_congr fun t => ?_
  cases ho : t.option? with
  | none => simp
  | some o =>
    simp only [bind_eq_ok_iff, View.keyFor_eq_ok_iff, (Node.option?_eq_some_iff.mp ho).1]
    constructor
    · rintro ⟨ht, key, ⟨path, hpath, rfl⟩, text, htext, h⟩
      cases h
      exact ⟨o, path, text, ht, rfl, hpath, htext, rfl⟩
    · rintro ⟨o', path, text, ht, ho', hpath, htext, rfl⟩
      cases ho'
      exact ⟨ht, _, ⟨path, hpath, rfl⟩, text, htext, rfl⟩

/-- **Why an entry cannot be written** below a root. -/
inductive Unwritable (r : Node) (entry : String × Value) : Prop where
  /-- The key leads nowhere. -/
  | stray {f : KeyFault} (h : r.parse entry.1 = .error f)
  | ofScope {t : Target} (h : r.parse entry.1 = .ok t) (ho : t.option? = none)
  /-- The option does not accept the value. -/
  | unfit {t : Target} {o : OptionRef} {f : Failure} (h : r.parse entry.1 = .ok t)
      (ho : t.option? = some o) (hv : validate o entry.2 = .error f)
  /-- The value has no flat form. -/
  | shapeless {t : Target} {o : OptionRef} {v : Value} {f : OptionType.Shapeless}
      (h : r.parse entry.1 = .ok t) (ho : t.option? = some o) (hv : validate o entry.2 = .ok v)
      (hf : OptionType.flatten v = .error f)

/-- An element of the schema has a key for whatever is found below it, so nothing else can be wrong
with an entry. -/
theorem writeFor_error_iff {s : Schema} {r : Node} (hr : s.Holds r) {above : String}
    {entry : String × Value} :
    (∃ f, writeFor ⟨r, above⟩ entry = .error f) ↔ Unwritable r entry := by
  rw [exists_error_iff]
  constructor
  · intro hno
    cases hp : r.parse entry.1 with
    | error f => exact .stray hp
    | ok t =>
      cases ho : t.option? with
      | none => exact .ofScope hp ho
      | some o =>
        cases hv : validate o entry.2 with
        | error f => exact .unfit hp ho hv
        | ok v =>
          cases hf : OptionType.flatten v with
          | error f => exact .shapeless hp ho hv hf
          | ok text =>
            obtain ⟨path, hpath⟩ := Node.exists_pathFrom hr.kind_eq hp
            have htext : serialize o entry.2 = .ok text := serialize_eq_ok_iff.mpr ⟨v, hv, hf⟩
            exact absurd (writeFor_eq_ok_iff.mpr ⟨t, o, path, text, hp, ho, hpath, htext, rfl⟩)
              (hno _)
  · intro hun write hwrite
    obtain ⟨t, o, path, text, hp, ho, -, htext, -⟩ := writeFor_eq_ok_iff.mp hwrite
    change r.parse entry.1 = .ok t at hp
    obtain ⟨v, hv, hf⟩ := serialize_eq_ok_iff.mp htext
    cases hun with
    | stray hp' => cases hp.symm.trans hp'
    | ofScope hp' ho' =>
      cases hp.symm.trans hp'
      cases ho.symm.trans ho'
    | unfit hp' ho' hv' =>
      cases hp.symm.trans hp'
      cases ho.symm.trans ho'
      cases hv.symm.trans hv'
    | shapeless hp' ho' hv' hf' =>
      cases hp.symm.trans hp'
      cases ho.symm.trans ho'
      cases hv.symm.trans hv'
      cases hf.symm.trans hf'

/-- Below a solid key, what ends with a name is solid. -/
theorem solid_below {above : String} (ha : Solid above) (lead : String) (name : Name) :
    Solid (above ++ "." ++ (lead ++ name.text)) := by
  have hkey := ha.append ("." ++ lead) name.solid
  simpa only [String.append_assoc] using hkey

/-- The key of an option is written as it is: it ends with the name of the option. -/
theorem solid_of_pathFrom {s : Schema} {r : Node} (hr : s.Holds r) {above : String} (ha : Solid above)
    {key : String} {t : Target} (hp : r.parse key = .ok t) (hkind : t.element.kind = .option)
    {path : String} (hpath : t.site.pathFrom r.site t.names = .ok path) :
    Solid (above ++ "." ++ path) := by
  obtain ⟨lead, name, rfl⟩ := Node.pathFrom_ends hr.kind_eq hp hkind hpath
  exact solid_below ha lead name

theorem solid_of_writeFor {s : Schema} {r : Node} (hr : s.Holds r) {above : String}
    (ha : Solid above) {entry : String × Value} {write : String × String}
    (h : writeFor ⟨r, above⟩ entry = .ok write) : Solid write.1 := by
  obtain ⟨t, o, path, text, hp, ho, hpath, -, rfl⟩ := writeFor_eq_ok_iff.mp h
  obtain ⟨-, d, he⟩ := Node.option?_eq_some_iff.mp ho
  have hkind : t.element.kind = .option := by
    rw [he]
    rfl
  exact solid_of_pathFrom hr ha hp hkind hpath

end ScanJobs.Config
