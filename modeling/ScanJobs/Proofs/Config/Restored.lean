import ScanJobs.Proofs.Config.Writes
import ScanJobs.Proofs.OptionType.Legible
import ScanJobs.Proofs.OptionType.Lossy
import ScanJobs.Proofs.Schema.Standing
import ScanJobs.Script.Types

/-! # Options that read back what they write

A value that an option accepts is written in flat form, and the flat form read again. Options of the
faithful types read back the values that can be read, and no others (`written_iff_legible`): the values of
the type with short integers (`written_and_read_back`). Sequences of texts are read back exactly if each
text can stand between commas (`written_texts_iff`). Members that are no integers, optional values and
values of unions are read back under conditions on their names, types and flat forms, which members do
not meet unless their payloads are their names (`lossy_read_back_iff`). -/

namespace ScanJobs.Config

open Schema Text OptionType

/-- An option accepts what its type does. -/
theorem validate_eq_ok_iff_accept {o : OptionRef} {v w : Value} :
    validate o v = .ok w ↔ o.type.accept (o.type.unflatten v) = .ok w := by
  rw [validate_eq_ok_iff]
  exact mapError_eq_ok_iff

/-- What is written for a value is the flat form of what it stands for. -/
theorem flatten_of_serialize {o : OptionRef} {v w : Value} {s : String}
    (hv : validate o v = .ok w) (hs : serialize o v = .ok s) : OptionType.flatten w = .ok s := by
  obtain ⟨w', hw', hflat⟩ := serialize_eq_ok_iff.mp hs
  cases hv.symm.trans hw'
  exact hflat

/-- Whether a value is read back from its flat form is a matter of the type. -/
theorem validate_text_iff_restores {o : OptionRef} {w : Value} {s : String}
    (hflat : OptionType.flatten w = .ok s) :
    validate o (.text s) = .ok w ↔ o.type.Restores w := by
  rw [validate_eq_ok_iff_accept, restores_iff hflat]

/-- An option of this type. -/
def optionOf (τ : OptionType) : OptionRef :=
  ⟨umbrellaRoot.site.along [⟨optionName, .option⟩], τ, some .none⟩

/-! ### Faithful types -/

/-- **A value of a faithful type is written and read back exactly if it can be read**: its integers
are integers, and of no more digits than are read. -/
theorem written_iff_legible {o : OptionRef} {v w : Value} (hτ : Faithful o.type)
    (hv : validate o v = .ok w) :
    (∃ s, serialize o v = .ok s ∧ validate o (.text s) = .ok w) ↔ o.type.Legible w := by
  rw [← restores_iff_legible hτ (validate_eq_ok_iff_accept.mp hv)]
  constructor
  · rintro ⟨s, hs, hw⟩
    exact (validate_text_iff_restores (flatten_of_serialize hv hs)).mp hw
  · intro hw
    obtain ⟨s, hflat, -⟩ := id hw
    exact ⟨s, serialize_eq_ok_iff.mpr ⟨w, hv, hflat⟩, (validate_text_iff_restores hflat).mpr hw⟩

/-- **What stands for a value of a faithful type** is written in one form and read back if its integers are
short. If not, it is not written, for an integer of so many digits has no text. -/
theorem written_and_read_back {o : OptionRef} {v w : Value} (hτ : Faithful o.type)
    (hv : validate o v = .ok w) (hw : o.type.IsValue w) :
    (w.HasShortParts → ∃ s, (∀ l, serializeIn l o v = .ok s) ∧ validate o (.text s) = .ok w) ∧
      (¬ w.HasShortParts → ∀ l, serializeIn l o v = .error (.config .tooLong)) := by
  have halike := flattenIn_of_isValue hτ (validate_eq_ok_iff_accept.mp hv) hw
  constructor
  · intro hshort
    obtain ⟨s, hs, hread⟩ := (written_iff_legible hτ hv).mpr ((legible_iff hτ).mpr ⟨hw, hshort⟩)
    refine ⟨s, fun l => serializeIn_eq_ok_iff.mpr ⟨w, hv, ?_⟩, hread⟩
    rw [(halike l).2]
    exact flatten_of_serialize hv hs
  · intro hlong l
    exact serializeIn_of_shapeless hv (flattenIn_eq_tooLong_iff.mpr ⟨(halike l).1, hlong⟩)

/-- A list of integers is written and read back. -/
theorem integers_written :
    ∃ s, (∀ l, serializeIn l (optionOf (.sequence .list .integer)) (.text " 10, -3,") = .ok s) ∧
      validate (optionOf (.sequence .list .integer)) (.text s) = .ok (.list [.int 10, .int (-3)]) := by
  refine (written_and_read_back (w := .list [.int 10, .int (-3)]) (.integers .list) rfl ?_).1 ?_
  · refine ⟨[.int 10, .int (-3)], rfl, fun x hx => ?_⟩
    rcases List.mem_cons.mp hx with rfl | hx
    · trivial
    · obtain rfl := List.mem_singleton.mp hx
      trivial
  · refine (hasShortParts_iff_items rfl).mpr fun x hx => ?_
    rcases List.mem_cons.mp hx with rfl | hx
    · exact Value.isStorable_int_iff.mpr (by decide)
    · obtain rfl := List.mem_singleton.mp hx
      exact Value.isStorable_int_iff.mpr (by decide)

theorem long_integer_not_written {n : Int} (h : ¬ Numeral.IsShort n) (s : String) :
    serialize (optionOf .integer) (.int n) ≠ .ok s := by
  intro hs
  have hflat : OptionType.flatten (.int n) = .ok s := flatten_of_serialize rfl hs
  have hstorable := ((flattenIn_whole_eq_ok_iff (w := .int n) rfl nofun).mp hflat).1
  exact h (Value.isStorable_int_iff.mp hstorable)

/-- An integer option takes a member of a plain enumeration for its payload, a text here, which it does
not read back. It takes integers of any number of digits, and writes none of more digits than it reads. -/
theorem members_and_long_integers_not_written :
    (validate (optionOf .integer) (.member (Script.colors.member ("RED", .text "red"))) =
        .ok (.text "red") ∧
      ¬ ∃ s, serialize (optionOf .integer) (.member (Script.colors.member ("RED", .text "red"))) =
          .ok s ∧ validate (optionOf .integer) (.text s) = .ok (.text "red")) ∧
    ∃ n : Int, validate (optionOf .integer) (.int n) = .ok (.int n) ∧
      ¬ ∃ s, serialize (optionOf .integer) (.int n) = .ok s := by
  refine ⟨⟨rfl, ?_⟩, Number.tenTo Numeral.maxDigits, rfl, ?_⟩
  · rintro ⟨s, hs, hread⟩
    cases hs
    cases hread
  · rintro ⟨s, hs⟩
    exact long_integer_not_written Numeral.not_isShort_tenTo s hs

/-! ### Sequences of texts -/

/-- **A sequence of texts is read back exactly if none of them is blank, has blanks at its ends or
holds a comma.** -/
theorem written_texts_iff {o : OptionRef} {shape : Shape} {v w : Value}
    (htype : o.type = .sequence shape .text) (hv : validate o v = .ok w) :
    ∃ (ts : List String) (s : String), w.items? = some (ts.map .text) ∧ serialize o w = .ok s ∧
      (validate o (.text s) = .ok w ↔
        ∀ t ∈ ts, isBlank t = false ∧ ',' ∉ t.toList ∧ strip t = t) := by
  rw [validate_eq_ok_iff_accept, htype] at hv
  obtain ⟨ts, hitems, rfl⟩ := exists_texts_of_accept hv
  obtain ⟨ys, hflat, -⟩ := exists_flatten_wrap isLeaf_of_mem_texts isStorable_of_mem_texts
    fun _ => orderly_map_text ts
  have hself : validate o (shape.wrap (ts.map .text)) = .ok (shape.wrap (ts.map .text)) := by
    rw [validate_eq_ok_iff_accept, htype]
    exact accept_wrap_texts hitems
  refine ⟨ts, _, hitems, serialize_eq_ok_iff.mpr ⟨_, hself, hflat⟩, ?_⟩
  rw [validate_text_iff_restores hflat, htype, restores_texts_iff hitems]
  refine forall₂_congr fun t _ => ?_
  exact ⟨fun h => ⟨h.solid.isBlank_eq, h.comma, h.solid.strip_eq⟩,
    fun ⟨hblank, hcomma, hstrip⟩ => ⟨⟨hblank, hstrip⟩, hcomma⟩⟩

/-- A text with a comma is not read back. -/
theorem text_with_comma_not_written :
    validate (optionOf (.sequence .list .text)) (.text "a,b") =
        .ok (.list [.text "a", .text "b"]) ∧
      serialize (optionOf (.sequence .list .text)) (.list [.text "a,b"]) = .ok "a,b" ∧
      validate (optionOf (.sequence .list .text)) (.text "a,b") ≠ .ok (.list [.text "a,b"]) := by
  have hv : validate (optionOf (.sequence .list .text)) (.list [.text "a,b"]) =
      .ok (.list [.text "a,b"]) := rfl
  obtain ⟨ts, s, hitems, hs, hread⟩ := written_texts_iff rfl hv
  have hts : ts.map Value.text = [.text "a,b"] := (Option.some.inj hitems).symm
  cases hs
  refine ⟨rfl, rfl, fun h => ?_⟩
  obtain ⟨t, rfl, ht⟩ := List.map_eq_singleton_iff.mp hts
  cases ht
  exact absurd ((hread.mp h) _ (List.mem_singleton.mpr rfl)).2.1 (by decide)

/-! ### Members, optional types and unions -/

variable {o : OptionRef} {v w : Value} {s : String}

theorem member_read_back_iff {e : Enumeration} (htype : o.type = .member e) (he : e.NoIntegers)
    {m : Member} (hm : e.Holds m) (hflat : OptionType.flatten (.member m) = .ok s) :
    validate o (.text s) = .ok (.member m) ↔ e.ofPayload? (.text (e.fullName m)) = some m := by
  rw [validate_text_iff_restores hflat, htype]
  exact restores_member_iff he hm

theorem members_read_back_iff {shape : Shape} {e : Enumeration}
    (htype : o.type = .sequence shape (.member e)) (he : e.transparent = false)
    (hv : validate o v = .ok w) (hflat : OptionType.flatten w = .ok s) {ms : List Member}
    (hitems : w.items? = some (ms.map .member))
    (hms : ∀ m ∈ ms, e.Holds m ∧ Piece (e.fullName m)) :
    validate o (.text s) = .ok w ↔ ∀ m ∈ ms, e.ofPayload? (.text (e.fullName m)) = some m := by
  rw [validate_eq_ok_iff_accept, htype] at hv
  obtain ⟨_, xs, -, hxs, rfl, -⟩ := exists_items_of_accept isLeaf_of_accept_member hv
  obtain rfl : xs = ms.map .member := Option.some.inj (hxs.symm.trans hitems)
  rw [validate_text_iff_restores hflat, htype]
  exact restores_members_iff he (fun m hm => (hms m hm).1) (fun m hm => (hms m hm).2) hitems hflat

/-- **When members, optional values and values of unions are read back.** A member that is no integer
is if its payload is its full name, and so are sequences of plain members. An optional type reads back
what its type does, except sequences and nothing. A union reads back a flat form that is a value of one
of its types if that is the value written, and any other if the first type that reads it takes it for
the value. -/
theorem lossy_read_back_iff (hv : validate o v = .ok w) (hs : serialize o v = .ok s) :
    (∀ e m, o.type = .member e → e.NoIntegers → w = .member m → e.Holds m →
        (validate o (.text s) = .ok w ↔ e.ofPayload? (.text (e.fullName m)) = some m)) ∧
      (∀ shape e (ms : List Member), o.type = .sequence shape (.member e) → e.transparent = false →
        w.items? = some (ms.map .member) → (∀ m ∈ ms, e.Holds m ∧ Piece (e.fullName m)) →
        (validate o (.text s) = .ok w ↔ ∀ m ∈ ms, e.ofPayload? (.text (e.fullName m)) = some m)) ∧
      (∀ τ, o.type = .optional τ → (validate o (.text s) = .ok w ↔
        w ≠ .none ∧ τ.isSequence = false ∧ validate ⟨o.site, τ, o.default⟩ (.text s) = .ok w)) ∧
      ∀ τ₁ τ₂, o.type = .union τ₁ τ₂ → (validate o (.text s) = .ok w ↔
        if τ₁.isExact (.text s) = true ∨ τ₂.isExact (.text s) = true then w = .text s
        else τ₁.accept (.text s) = .ok w ∨ ¬ τ₁.Reads s ∧ τ₂.accept (.text s) = .ok w) := by
  have hflat := flatten_of_serialize hv hs
  refine ⟨?_, ?_, ?_, ?_⟩
  · rintro e m htype he rfl hm
    exact member_read_back_iff htype he hm hflat
  · intro shape e ms htype he hitems hms
    exact members_read_back_iff htype he hv hflat hitems hms
  · intro τ htype
    rw [validate_text_iff_restores hflat, validate_text_iff_restores hflat, htype]
    exact restores_optional_iff
  · intro τ₁ τ₂ htype
    rw [validate_text_iff_restores hflat, htype]
    exact restores_union_iff hflat

/-- None of these is read back: a plain member, a list of one, nothing, and an integer of a union with
texts. -/
theorem lossy_not_read_back :
    (serialize (optionOf (.member Script.colors)) (.text "red") = .ok "Color.RED" ∧
      validate (optionOf (.member Script.colors)) (.text "Color.RED") ≠
        validate (optionOf (.member Script.colors)) (.text "red")) ∧
    (serialize (optionOf (.sequence .list (.member Script.colors))) (.text "red") =
        .ok "Color.RED" ∧
      validate (optionOf (.sequence .list (.member Script.colors))) (.text "Color.RED") ≠
        validate (optionOf (.sequence .list (.member Script.colors))) (.text "red")) ∧
    (serialize (optionOf (.optional .text)) .none = .ok "None" ∧
      validate (optionOf (.optional .text)) (.text "None") ≠
        validate (optionOf (.optional .text)) .none) ∧
    (serialize (optionOf (.union .integer .text)) (.int 5) = .ok "5" ∧
      validate (optionOf (.union .integer .text)) (.text "5") ≠
        validate (optionOf (.union .integer .text)) (.int 5)) := by
  have hred : Script.colors.Holds (Script.colors.member ("RED", .text "red")) :=
    ⟨_, by simp [Script.colors], rfl⟩
  have hpiece : Piece (Script.colors.fullName (Script.colors.member ("RED", .text "red"))) :=
    ⟨⟨by decide, by decide⟩, by decide⟩
  refine ⟨⟨rfl, fun h => ?_⟩, ⟨rfl, fun h => ?_⟩, ⟨rfl, fun h => ?_⟩, ⟨rfl, fun h => ?_⟩⟩
  · have hread := (lossy_read_back_iff (o := optionOf (.member Script.colors)) (v := .text "red")
      rfl rfl).1 _ _ rfl nofun rfl hred
    exact absurd (hread.mp h) (by decide)
  · have hread := (lossy_read_back_iff (o := optionOf (.sequence .list (.member Script.colors)))
      (v := .text "red") rfl rfl).2.1 _ _ [Script.colors.member ("RED", .text "red")] rfl rfl rfl
      fun m hm => by
        obtain rfl := List.mem_singleton.mp hm
        exact ⟨hred, hpiece⟩
    exact absurd (hread.mp h _ (List.mem_singleton.mpr rfl)) (by decide)
  · have hread := (lossy_read_back_iff (o := optionOf (.optional .text)) (v := .none)
      rfl rfl).2.2.1 _ rfl
    exact (hread.mp h).1 rfl
  · have hread := (lossy_read_back_iff (o := optionOf (.union .integer .text)) (v := .int 5)
      rfl rfl).2.2.2 _ _ rfl
    rw [if_pos (.inr rfl)] at hread
    cases hread.mp h

end ScanJobs.Config
