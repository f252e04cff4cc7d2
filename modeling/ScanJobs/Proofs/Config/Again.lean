import ScanJobs.Proofs.Config.Restored
import ScanJobs.Proofs.Config.Worker
import ScanJobs.Proofs.OptionType.Typed

/-! # Validating again

What an option accepted is accepted again, and stays the same, exactly if it is of the option's type
(`validated_again`). It is unless a plain member was given where an integer is meant: that is taken for its
payload, which may be a text. No text has a member, so a worker, which reads the values of its job from
texts and validates them once more, finds them as they were read. -/

namespace ScanJobs

namespace OptionType

variable {τ : OptionType} {v w : Value}

theorem proper_unflatten (hv : v.Proper) : (τ.unflatten v).Proper := by
  unfold unflatten
  split
  · refine Value.Proper.of_ordered (s := .list) rfl fun x hx => ?_
    obtain ⟨p, -, rfl⟩ := List.mem_map.mp hx
    exact .leaf rfl
  · exact hv

/-- What is accepted is no text that is to be taken apart. -/
theorem unflatten_of_accept (h : accept τ v = .ok w) : τ.unflatten w = w := by
  cases hs : τ.isSequence with
  | false => exact unflatten_of_not_sequence hs w
  | true =>
    have hitems : ∃ xs, w.items? = some xs := by
      cases τ with
      | sequence shape τ =>
        obtain ⟨_, ys, -, -, rfl⟩ := accept_sequence_iff.mp h
        rw [Shape.wrap_eq]
        exact ⟨_, Shape.items?_container ..⟩
      | record τs =>
        obtain ⟨_, ys, -, -, rfl⟩ := accept_record_iff.mp h
        exact ⟨ys, rfl⟩
      | _ => cases hs
    obtain ⟨xs, hxs⟩ := hitems
    obtain ⟨shape, rfl⟩ := Value.items?_eq_some_iff.mp hxs
    have htext : (shape.container xs).text? = none := by cases shape <;> rfl
    unfold unflatten
    rw [hs, htext]

/-- The types that are told by name unite plain types only. -/
theorem plainUnions_of_mem_types : ∀ p ∈ Script.types, PlainUnions p.2 := by
  unfold Script.types
  repeat' first
    | exact .plain rfl
    | exact .any
    | exact List.forall_mem_nil _
    | refine List.forall_mem_cons.mpr ⟨?_, ?_⟩
    | refine .sequence ?_
    | refine .record ?_
    | refine .optional ?_
    | refine .map ?_ ?_

end OptionType

namespace Config

open Schema OptionType

variable {o : OptionRef} {v w : Value}

/-- **What becomes of an accepted value** that is validated again, or read from a configuration. -/
structure ValidatesAgain (o : OptionRef) (v w : Value) : Prop where
  /-- It is accepted and stays the same exactly if it is of the type. -/
  again : (∃ w', validate o w = .ok w' ∧ w.Relisted w') ↔ o.type.Typed w
  /-- It is of the type if there was no plain member where an integer is meant. -/
  clear : o.type.Clear (o.type.unflatten v) → o.type.Typed w
  /-- If it is accepted at all, then what is accepted stays the same from there on. -/
  settled : ∀ {w' : Value}, validate o w = .ok w' → o.type.Typed w'
  /-- A configuration that holds it gives it back the same if it is of the type. -/
  read : o.type.Typed w → ∀ {a : Application} {names : List String} {key : String},
    o.site.path names = .ok key → a.values.get? key = some w →
    ∃ w', a.get o names = .ok w' ∧ w.Relisted w'
  /-- What a text was taken for is of the type, and a configuration that holds it gives back just this. -/
  text : ∀ {s : String}, v = .text s → o.type.Typed w ∧
    ∀ {a : Application} {names : List String} {key : String},
      o.site.path names = .ok key → a.values.get? key = some w → a.get o names = .ok w

/-- **Validating twice is validating once**, for values of the type. -/
theorem validated_again (hτ : o.type.PlainUnions) (hv : v.Proper) (h : validate o v = .ok w) :
    ValidatesAgain o v w := by
  have haccept := validate_eq_ok_iff_accept.mp h
  have hself : ∀ w', validate o w = .ok w' ↔ o.type.accept w = .ok w' := by
    intro w'
    rw [validate_eq_ok_iff_accept, unflatten_of_accept haccept]
  have hproper : w.Proper := proper_of_accept hτ (proper_unflatten hv) haccept
  have hagain : (∃ w', validate o w = .ok w' ∧ w.Relisted w') ↔ o.type.Typed w := by
    simp only [hself]
    constructor
    · rintro ⟨w', hw', hrelisted⟩
      exact Typed.of_relisted hτ (typed_of_accept_accept hτ haccept hw') hrelisted
    · exact exists_accept_of_typed hτ hproper
  have hget : ∀ {a : Application} {names : List String} {key : String},
      o.site.path names = .ok key → a.values.get? key = some w → a.get o names = validate o w := by
    intro a names key hkey hstored
    rw [Application.get_eq a hkey, hstored]
  have hsettled : ∀ {w'}, validate o w = .ok w' → o.type.Typed w' :=
    fun hw' => typed_of_accept_accept hτ haccept ((hself _).mp hw')
  refine ⟨hagain, fun hclear => typed_of_clear hclear haccept, hsettled, ?_, ?_⟩
  · intro htyped a names key hkey hstored
    rw [hget hkey hstored]
    exact hagain.mpr htyped
  · rintro s rfl
    have htwice : validate o w = .ok w := validate_validate_text h
    exact ⟨hsettled htwice, fun hkey hstored => (hget hkey hstored).trans htwice⟩

/-- A set of integers is the same when it is validated again. A member of a plain enumeration is taken for
its payload where an integer is meant, a text here that is then refused. -/
theorem set_of_integers_validated_again :
    (∃ w w', validate (optionOf (.sequence .set .integer)) (.list [.int 2, .bool true, .int 2]) = .ok w ∧
      validate (optionOf (.sequence .set .integer)) w = .ok w' ∧ w.Relisted w') ∧
    validate (optionOf .integer) (.member (Script.colors.member ("RED", .text "red"))) =
        .ok (.text "red") ∧
      ¬ ∃ w', validate (optionOf .integer) (.text "red") = .ok w' := by
  have hv : validate (optionOf (.sequence .set .integer)) (.list [.int 2, .bool true, .int 2]) =
      .ok (.set (Value.setItems [.int 2, .int 1, .int 2])) := rfl
  have hproper : Value.Proper (.list [.int 2, .bool true, .int 2]) := by
    refine .of_ordered (s := .list) rfl ?_
    simp only [List.forall_mem_cons]
    exact ⟨.leaf rfl, .leaf rfl, .leaf rfl, List.forall_mem_nil _⟩
  have hclear : Clear (.sequence .set .integer) (.list [.int 2, .bool true, .int 2]) := by
    refine .sequence ?_
    rintro _ ⟨⟩
    simp only [List.forall_mem_cons]
    have htwo : Clear .integer (.int 2) := .plain rfl fun _ => .inl rfl
    have htrue : Clear .integer (.bool true) := .plain rfl fun _ => .inr fun m hm => by cases hm
    exact ⟨htwo, htrue, htwo, List.forall_mem_nil _⟩
  have hagain := validated_again (.sequence (.plain rfl)) hproper hv
  obtain ⟨w', hw', hsame⟩ := hagain.again.mpr (hagain.clear hclear)
  refine ⟨⟨_, w', hv, hw', hsame⟩, rfl, ?_⟩
  rintro ⟨w', h⟩
  cases h

end Config

end ScanJobs
