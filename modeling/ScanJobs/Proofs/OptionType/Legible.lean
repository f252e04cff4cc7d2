import ScanJobs.Proofs.Number.Written
import ScanJobs.Proofs.OptionType.Restoring
import ScanJobs.Proofs.Value.Enumeration

/-! # Types whose values are read back

Texts, integers, truth values, choices and members of integer enumerations are read back, and so are
sequences of integers, truth values and such members. The integers must not have more digits than are
read, and must be integers: where an integer is meant, a member of a plain enumeration is taken for
its payload whatever that is. No other values of these types are restored (`restores_iff_legible`). -/

namespace ScanJobs.OptionType

/-- **The types of a faithful flat form.** -/
inductive Faithful : OptionType → Prop
  | text : Faithful .text
  | integer : Faithful .integer
  | boolean : Faithful .boolean
  | literal (choices : List String) : Faithful (.literal choices)
  | member {e : Enumeration} (h : e.OfIntegers) : Faithful (.member e)
  | integers (shape : Shape) : Faithful (.sequence shape .integer)
  | booleans : Faithful (.sequence .list .boolean)
  | members {e : Enumeration} (h : e.OfIntegers) : Faithful (.sequence .list (.member e))

/-- **The value is one of the type**: an integer where one is meant, a choice that is given, a member that
the enumeration has. -/
def IsValue : OptionType → Value → Prop
  | .text, .text _ => True
  | .integer, .int _ => True
  | .boolean, .bool _ => True
  | .literal choices, .text s => s ∈ choices
  | .member e, .member m => e.Owns m
  | .sequence _ τ, w => ∃ xs, w.items? = some xs ∧ ∀ x ∈ xs, IsValue τ x
  | _, _ => False

/-- **The value is of the type, and its integers can be read.** -/
def Legible : OptionType → Value → Prop
  | .text, .text _ => True
  | .integer, .int n => Numeral.IsShort n
  | .boolean, .bool _ => True
  | .literal choices, .text s => s ∈ choices
  | .member e, .member m => e.Owns m ∧ ∀ n, m.payload = .int n → Numeral.IsShort n
  | .sequence _ τ, w => ∃ xs, w.items? = some xs ∧ ∀ x ∈ xs, Legible τ x
  | _, _ => False

/-! ### Values with short integers -/

/-- Those of the values of the type are legible that can be stored as text. -/
def LegibleIfStorable (τ : OptionType) : Prop :=
  ∀ x, Legible τ x ↔ IsValue τ x ∧ x.isStorable = true

theorem legible_integer_iff : LegibleIfStorable .integer := by
  intro x
  cases x with
  | int n =>
    exact ⟨fun h => ⟨trivial, Value.isStorable_int_iff.mpr h⟩, fun h => Value.isStorable_int_iff.mp h.2⟩
  | _ => exact ⟨False.elim, fun h => h.1⟩

theorem legible_text_iff : LegibleIfStorable .text := by
  intro x
  cases x with
  | text s => exact ⟨fun h => ⟨h, rfl⟩, fun h => h.1⟩
  | _ => exact ⟨False.elim, fun h => h.1⟩

theorem legible_boolean_iff : LegibleIfStorable .boolean := by
  intro x
  cases x with
  | bool b => exact ⟨fun h => ⟨h, rfl⟩, fun h => h.1⟩
  | _ => exact ⟨False.elim, fun h => h.1⟩

theorem legible_literal_iff (choices : List String) : LegibleIfStorable (.literal choices) := by
  intro x
  cases x with
  | text s => exact ⟨fun h => ⟨h, rfl⟩, fun h => h.1⟩
  | _ => exact ⟨False.elim, fun h => h.1⟩

theorem legible_member_iff {e : Enumeration} (he : e.OfIntegers) : LegibleIfStorable (.member e) := by
  intro x
  cases x with
  | member m =>
    refine and_congr_right fun hown => ?_
    have htransparent : m.transparent = true := hown.transparent_eq.trans he.transparent
    rw [Value.isStorable_member_iff]
    exact ⟨fun h _ => h, fun h => h htransparent⟩
  | _ => exact ⟨False.elim, fun h => h.1⟩

theorem items?_of_isValue {τ : OptionType} {v : Value} (hτ : τ.isSequence = false)
    (h : IsValue τ v) : v.items? = none := by
  cases τ with
  | sequence _ _ | record _ => cases hτ
  | _ => cases v <;> first | rfl | exact h.elim

theorem legible_iff_of_whole {τ : OptionType} {w : Value} (h : LegibleIfStorable τ)
    (hτ : τ.isSequence = false) : Legible τ w ↔ IsValue τ w ∧ w.HasShortParts := by
  rw [h]
  exact and_congr_right fun hw => (hasShortParts_iff_whole (items?_of_isValue hτ hw)).symm

theorem legible_iff_of_sequence {shape : Shape} {τ : OptionType} {w : Value}
    (h : LegibleIfStorable τ) :
    Legible (.sequence shape τ) w ↔ IsValue (.sequence shape τ) w ∧ w.HasShortParts := by
  unfold Legible IsValue
  constructor
  · rintro ⟨xs, hitems, hxs⟩
    rw [hasShortParts_iff_items hitems]
    exact ⟨⟨xs, hitems, fun x hx => ((h x).mp (hxs x hx)).1⟩, fun x hx => ((h x).mp (hxs x hx)).2⟩
  · rintro ⟨⟨xs, hitems, hxs⟩, hshort⟩
    rw [hasShortParts_iff_items hitems] at hshort
    exact ⟨xs, hitems, fun x hx => (h x).mpr ⟨hxs x hx, hshort x hx⟩⟩

/-- **The values of a faithful type can be read if their integers are short.** -/
theorem legible_iff {τ : OptionType} (hτ : Faithful τ) {w : Value} :
    Legible τ w ↔ IsValue τ w ∧ w.HasShortParts := by
  cases hτ with
  | text => exact legible_iff_of_whole legible_text_iff rfl
  | integer => exact legible_iff_of_whole legible_integer_iff rfl
  | boolean => exact legible_iff_of_whole legible_boolean_iff rfl
  | literal choices => exact legible_iff_of_whole (legible_literal_iff choices) rfl
  | member he => exact legible_iff_of_whole (legible_member_iff he) rfl
  | integers shape => exact legible_iff_of_sequence legible_integer_iff
  | booleans => exact legible_iff_of_sequence legible_boolean_iff
  | members he => exact legible_iff_of_sequence (legible_member_iff he)

/-! ### Reading -/

theorem integerOf?_toString {n : Int} (h : Numeral.IsShort n) :
    integerOf? (.text (toString n)) = some n := by
  have hread : integerOf? (.text (toString n)) = (Numeral.integer (toString n)).toOption := rfl
  rw [hread, Numeral.integer_toString, if_pos h]
  rfl

theorem accept_integer_toString {n : Int} (h : Numeral.IsShort n) :
    accept .integer (.text (toString n)) = .ok (.int n) := by
  have hread : integral? (.text (toString n)) = (integerOf? (.text (toString n))).map .int := rfl
  rw [accept, hread, integerOf?_toString h]
  rfl

theorem accept_member_toString {e : Enumeration} (he : e.OfIntegers) {m : Member} {n : Int}
    (hm : e.Owns m) (hn : m.payload = .int n) (h : Numeral.IsShort n) :
    accept (.member e) (.text (toString n)) = .ok (.member m) := by
  have hpayload : payloadOf? e (.text (toString n)) = some (.int n) := by
    rw [payloadOf?, he.transparent]
    simp only [if_true, writing?, Value.text?, he.ofPayload?_text, payloadOf?.fallback,
      he.transparent, integerOf?_toString h]
    rfl
  have hmember : memberOf? e (.text (toString n)) = some m := by
    have hread : memberOf? e (.text (toString n)) =
        (payloadOf? e (.text (toString n))).bind e.ofPayload? := rfl
    rw [hread, hpayload, Option.bind_some, ← hn]
    exact hm
  rw [accept, hmember]
  rfl

/-! ### Values without parts -/

/-- The value has no parts, is written and read back, and its text is a piece. -/
structure ReadBack (τ : OptionType) (x : Value) : Prop where
  isLeaf : x.isLeaf = true
  storable : x.isStorable = true
  piece : Piece x.plain
  read : accept τ (.text x.plain) = .ok x

theorem readBack_integer {x : Value} (h : Legible .integer x) :
    (∃ n, x = .int n) ∧ ReadBack .integer x := by
  cases x with
  | int n =>
    exact ⟨⟨n, rfl⟩, rfl, Value.isStorable_int_iff.mpr h, Numeral.piece_toString n, accept_integer_toString h⟩
  | _ => exact h.elim

theorem readBack_boolean {x : Value} (h : Legible .boolean x) : ReadBack .boolean x := by
  cases x with
  | bool b =>
    cases b
    · exact ⟨rfl, rfl, ⟨⟨by decide, by decide⟩, by decide⟩, by rfl⟩
    · exact ⟨rfl, rfl, ⟨⟨by decide, by decide⟩, by decide⟩, by rfl⟩
  | _ => exact h.elim

theorem readBack_member {e : Enumeration} (he : e.OfIntegers) {x : Value}
    (h : Legible (.member e) x) : ReadBack (.member e) x := by
  cases x with
  | member m =>
    obtain ⟨hown, hshort⟩ := h
    obtain ⟨n, hn, hplain⟩ := he.plainMember_eq hown
    have htext : (Value.member m).plain = toString n := hplain
    refine ⟨rfl, Value.isStorable_member_iff.mpr fun _ => hshort, ?_, ?_⟩
    · rw [htext]
      exact Numeral.piece_toString n
    · rw [htext]
      exact accept_member_toString he hown hn (hshort n hn)
  | _ => exact h.elim

/-! ### What is accepted has no parts -/

theorem isLeaf_of_accept_integer {v w : Value} (h : accept .integer v = .ok w) :
    w.isLeaf = true := by
  unfold accept at h
  rw [required_eq_ok_iff] at h
  unfold integral? at h
  split at h
  · next payload =>
    cases h
    cases payload <;> rfl
  · obtain ⟨n, -, rfl⟩ := Option.map_eq_some_iff.mp h
    rfl

theorem isLeaf_of_accept_boolean {v w : Value} (h : accept .boolean v = .ok w) :
    w.isLeaf = true := by
  unfold accept at h
  obtain ⟨b, -, rfl⟩ := map_eq_ok_iff.mp h
  rfl

theorem isLeaf_of_accept_member {e : Enumeration} {v w : Value}
    (h : accept (.member e) v = .ok w) : w.isLeaf = true := by
  unfold accept at h
  obtain ⟨m, -, rfl⟩ := map_eq_ok_iff.mp h
  rfl

/-! ### All types -/

/-- A value that is written in plain form and read back is restored. -/
theorem ReadBack.restores {τ : OptionType} {x : Value} (h : ReadBack τ x)
    (hτ : τ.isSequence = false) (hbool : ∀ b, x ≠ .bool b) : Restores τ x := by
  have hflat : flatten x = .ok x.plain :=
    (flattenIn_whole_eq_ok_iff (Value.items?_of_isLeaf h.isLeaf) hbool).mpr ⟨h.storable, rfl⟩
  rw [restores_iff hflat, unflatten_of_not_sequence hτ]
  exact h.read

/-- A sequence of values that are read back is restored, if a set of them can be sorted. -/
theorem restores_of_readBack {shape : Shape} {τ : OptionType} {v w : Value}
    (hleaf : ∀ {x y}, accept τ x = .ok y → y.isLeaf = true)
    (hv : accept (.sequence shape τ) v = .ok w) (hw : Legible (.sequence shape τ) w)
    (hread : ∀ x, Legible τ x → ReadBack τ x)
    (hord : ∀ xs, (∀ x ∈ xs, Legible τ x) → shape.isSet = true → Value.Orderly xs) :
    Restores (.sequence shape τ) w := by
  obtain ⟨xs, hitems, hlegible⟩ := hw
  obtain ⟨_, ys, -, hys, rfl, -⟩ := exists_items_of_accept hleaf hv
  obtain rfl : ys = xs := Option.some.inj (hys.symm.trans hitems)
  exact restores_wrap (fun x hx => (hread x (hlegible x hx)).isLeaf)
    (fun x hx => (hread x (hlegible x hx)).storable) (hord ys hlegible)
    (fun x hx => (hread x (hlegible x hx)).piece) (fun x hx => (hread x (hlegible x hx)).read)

/-- **Accepted values that can be read are restored.** -/
theorem restores_of_legible {τ : OptionType} {v w : Value} (hτ : Faithful τ)
    (hv : accept τ (τ.unflatten v) = .ok w) (hw : Legible τ w) : Restores τ w := by
  cases hτ with
  | text =>
    obtain ⟨s, rfl⟩ := exists_text_of_accept hv
    exact ⟨s, rfl, rfl⟩
  | integer =>
    obtain ⟨⟨n, rfl⟩, hread⟩ := readBack_integer hw
    exact hread.restores rfl nofun
  | boolean =>
    cases w with
    | bool b => cases b <;> exact ⟨_, rfl, rfl⟩
    | _ => exact hw.elim
  | literal choices =>
    cases w with
    | text s =>
      refine ⟨s, rfl, ?_⟩
      rw [unflatten_of_not_sequence rfl]
      exact accept_of_isExact (isExact_iff.mpr ⟨s, hw, rfl⟩)
    | _ => exact hw.elim
  | member he =>
    have hread := readBack_member he hw
    cases w with
    | member m => exact hread.restores rfl nofun
    | _ => exact hw.elim
  | integers shape =>
    exact restores_of_readBack isLeaf_of_accept_integer hv hw (fun x hx => (readBack_integer hx).2)
      fun xs hxs _ => Value.orderly_ints fun x hx => (readBack_integer (hxs x hx)).1
  | booleans =>
    exact restores_of_readBack isLeaf_of_accept_boolean hv hw (fun x => readBack_boolean)
      fun xs hxs hset => nomatch hset
  | members he =>
    exact restores_of_readBack isLeaf_of_accept_member hv hw (fun x => readBack_member he)
      fun xs hxs hset => nomatch hset

theorem unordered?_of_accept_list {τ : OptionType} {v w : Value}
    (h : accept (.sequence .list τ) v = .ok w) : w.unordered? = none := by
  obtain ⟨_, zs, -, rfl, -⟩ := exists_wrap_of_accept h
  rfl

/-- The sets among the values of faithful types are sets of integers. -/
theorem ints_of_unordered {τ : OptionType} {v w : Value} {xs : List Value} (hτ : Faithful τ)
    (hv : accept τ (τ.unflatten v) = .ok w) (hw : IsValue τ w) (h : w.unordered? = some xs) :
    ∀ x ∈ xs, ∃ n, .int n = x := by
  have hitems : w.items? = some xs := Value.items?_of_unordered? h
  have hwhole : τ.isSequence = true := by
    cases hseq : τ.isSequence with
    | true => rfl
    | false => cases (items?_of_isValue hseq hw).symm.trans hitems
  cases hτ with
  | integers shape =>
    obtain ⟨ys, hys, hvalue⟩ := hw
    obtain rfl : ys = xs := Option.some.inj (hys.symm.trans hitems)
    intro x hx
    have hint := hvalue x hx
    cases x with
    | int n => exact ⟨n, rfl⟩
    | _ => exact hint.elim
  | booleans => cases (unordered?_of_accept_list hv).symm.trans h
  | members he => cases (unordered?_of_accept_list hv).symm.trans h
  | _ => cases hwhole

/-- **Values of a faithful type are written alike** in whatever order sets hand out their items. -/
theorem flattenIn_of_isValue {τ : OptionType} {v w : Value} (hτ : Faithful τ)
    (hv : accept τ (τ.unflatten v) = .ok w) (hw : IsValue τ w) (l : Value.Listing) :
    Sortable l w ∧ flattenIn l w = flatten w := by
  have hsorted : ∀ xs, w.unordered? = some xs → ∀ l : Value.Listing,
      ∃ ys, Value.sorted xs = .ok ys ∧ Value.sorted (l.of xs) = .ok ys := fun xs hxs l =>
    Value.comparedBy_int.sorted_of_perm (ints_of_unordered hτ hv hw hxs) (l.perm xs)
  constructor
  · intro xs hxs
    obtain ⟨ys, -, hys⟩ := hsorted xs hxs l
    exact ⟨ys, hys⟩
  · refine flattenIn_eq_of_sorted fun xs hxs => ?_
    obtain ⟨ys, hxs', hys⟩ := hsorted xs hxs l
    obtain ⟨zs, hxs'', hzs⟩ := hsorted xs hxs .textsFirst
    cases hxs'.symm.trans hxs''
    rw [hys, hzs]

/-! ### What is read back can be read -/

theorem exists_int_of_accept {s : String} {x : Value} (h : accept .integer (.text s) = .ok x) :
    ∃ n, integerOf? (.text s) = some n ∧ x = .int n := by
  have hread : accept .integer (.text s) = required ((integerOf? (.text s)).map .int) := by
    rw [accept]
    rfl
  rw [hread, required_eq_ok_iff] at h
  obtain ⟨n, hn, rfl⟩ := Option.map_eq_some_iff.mp h
  exact ⟨n, hn, rfl⟩

/-- Texts with too many digits are not read as integers. -/
theorem isShort_of_integerOf? {n m : Int} (h : integerOf? (.text (toString n)) = some m) :
    Numeral.IsShort n := by
  by_contra hn
  have hread : integerOf? (.text (toString n)) = (Numeral.integer (toString n)).toOption := rfl
  rw [hread, Numeral.integer_toString, if_neg hn] at h
  cases h

/-- What is read stands for a payload of the enumeration. -/
theorem exists_member_of_accept {e : Enumeration} {s : String} {x : Value}
    (h : accept (.member e) (.text s) = .ok x) :
    ∃ m p, payloadOf? e (.text s) = some p ∧ e.ofPayload? p = some m ∧ x = .member m := by
  unfold accept at h
  obtain ⟨m, hm, rfl⟩ := map_eq_ok_iff.mp h
  have hread : memberOf? e (.text s) = (payloadOf? e (.text s)).bind e.ofPayload? := rfl
  rw [required_eq_ok_iff, hread] at hm
  obtain ⟨p, hp, hpm⟩ := Option.bind_eq_some_iff.mp hm
  exact ⟨m, p, hp, hpm, rfl⟩

theorem isShort_of_payloadOf? {e : Enumeration} (he : e.OfIntegers) {n : Int} {p : Payload}
    (h : payloadOf? e (.text (toString n)) = some p) : Numeral.IsShort n := by
  rw [payloadOf?, he.transparent] at h
  simp only [if_true, writing?, Value.text?, he.ofPayload?_text, payloadOf?.fallback,
    he.transparent] at h
  obtain ⟨m, hm, -⟩ := Option.map_eq_some_iff.mp h
  exact isShort_of_integerOf? hm

/-- Values of the type that are read from a text can be read from their own if this is read at all. -/
structure Reading (τ : OptionType) : Prop where
  isLeaf : ∀ {v x}, accept τ v = .ok x → x.isLeaf = true
  piece : ∀ {s x}, accept τ (.text s) = .ok x → Piece x.plain
  legible : ∀ {s x y}, accept τ (.text s) = .ok x → accept τ (.text x.plain) = .ok y → Legible τ x

theorem reading_integer : Reading .integer where
  isLeaf := isLeaf_of_accept_integer
  piece h := by
    obtain ⟨n, -, rfl⟩ := exists_int_of_accept h
    exact Numeral.piece_toString n
  legible h hread := by
    obtain ⟨n, -, rfl⟩ := exists_int_of_accept h
    obtain ⟨_, hn, -⟩ := exists_int_of_accept hread
    exact isShort_of_integerOf? hn

theorem reading_boolean : Reading .boolean where
  isLeaf := isLeaf_of_accept_boolean
  piece h := by
    unfold accept at h
    obtain ⟨b, -, rfl⟩ := map_eq_ok_iff.mp h
    exact (readBack_boolean (x := .bool b) trivial).piece
  legible h _ := by
    unfold accept at h
    obtain ⟨b, -, rfl⟩ := map_eq_ok_iff.mp h
    trivial

theorem reading_member {e : Enumeration} (he : e.OfIntegers) : Reading (.member e) where
  isLeaf := isLeaf_of_accept_member
  piece h := by
    obtain ⟨m, p, -, hm, rfl⟩ := exists_member_of_accept h
    obtain ⟨n, -, hplain⟩ := he.plainMember_eq (Enumeration.owns_of_ofPayload? hm)
    change Piece (Value.plainMember m)
    rw [hplain]
    exact Numeral.piece_toString n
  legible h hread := by
    obtain ⟨m, p, -, hm, rfl⟩ := exists_member_of_accept h
    have hown := Enumeration.owns_of_ofPayload? hm
    obtain ⟨n, hn, hplain⟩ := he.plainMember_eq hown
    have htext : (Value.member m).plain = toString n := hplain
    rw [htext] at hread
    obtain ⟨_, q, hq, -⟩ := exists_member_of_accept hread
    refine ⟨hown, fun n' hn' => ?_⟩
    cases hn.symm.trans hn'
    exact isShort_of_payloadOf? he hq

theorem Reading.legible_of_restores {τ : OptionType} {w : Value} (h : Reading τ)
    (hτ : τ.isSequence = false) (hitems : w.items? = none) (hbool : ∀ b, w ≠ .bool b)
    (hw : Restores τ w) : Legible τ w := by
  obtain ⟨s, hs, hread⟩ := hw
  rw [unflatten_of_not_sequence hτ] at hread
  obtain rfl := ((flattenIn_whole_eq_ok_iff hitems hbool).mp hs).2
  exact h.legible hread hread

/-- The items of a sequence that is restored are each read back. -/
theorem Reading.legible_of_restores_sequence {shape : Shape} {τ : OptionType} {w : Value}
    (h : Reading τ) (hw : Restores (.sequence shape τ) w) : Legible (.sequence shape τ) w := by
  obtain ⟨s, hs, hread⟩ := hw
  obtain ⟨vs, xs, hvs, hitems, -, hxs⟩ := exists_items_of_accept h.isLeaf hread
  obtain rfl : (pieces s).map .text = vs := Option.some.inj hvs
  have htext : ∀ x ∈ xs, ∃ p, accept τ (.text p) = .ok x := by
    intro x hx
    obtain ⟨v, hv, hvx⟩ := hxs x hx
    obtain ⟨p, -, rfl⟩ := List.mem_map.mp hv
    exact ⟨p, hvx⟩
  -- the pieces of the flat form are the items as they are written
  obtain ⟨ys, hperm, rfl⟩ := exists_perm_of_flatten hitems hs
  have hps : ∀ p ∈ ys.map Value.plain, Piece p := by
    intro p hp
    obtain ⟨y, hy, rfl⟩ := List.mem_map.mp hp
    obtain ⟨q, hq⟩ := htext y (hperm.mem_iff.mp hy)
    exact h.piece hq
  rw [flattenItems, accept_join_eq_ok_iff hps] at hread
  obtain ⟨zs, hzs, -⟩ := hread
  refine ⟨xs, hitems, fun x hx => ?_⟩
  obtain ⟨p, hp⟩ := htext x hx
  have hmem : (accept τ (.text x.plain) >>= itemFor shape) ∈ zs.map Except.ok := by
    rw [← hzs, List.map_map]
    exact List.mem_map_of_mem (f := fun y => accept τ (.text y.plain) >>= itemFor shape)
      (hperm.mem_iff.mpr hx)
  obtain ⟨z, -, hz⟩ := List.mem_map.mp hmem
  obtain ⟨y, hy, -⟩ := bind_eq_ok_iff.mp hz.symm
  exact h.legible hp hy

/-- **What is restored can be read.** -/
theorem legible_of_restores {τ : OptionType} {w : Value} (hτ : Faithful τ) (h : Restores τ w) :
    Legible τ w := by
  have ⟨s, hs, hread⟩ := h
  cases hτ with
  | text =>
    obtain ⟨t, rfl⟩ := exists_text_of_accept hread
    trivial
  | integer =>
    obtain ⟨n, -, rfl⟩ := exists_int_of_accept hread
    exact reading_integer.legible_of_restores rfl rfl (by simp) h
  | boolean =>
    rw [unflatten_of_not_sequence rfl, accept] at hread
    obtain ⟨b, -, rfl⟩ := map_eq_ok_iff.mp hread
    trivial
  | literal choices =>
    rw [unflatten_of_not_sequence rfl, accept] at hread
    obtain ⟨t, ht, rfl⟩ := map_eq_ok_iff.mp hread
    have hchoice : t ∈ choices := by
      simpa using (Option.filter_eq_some_iff.mp (required_eq_ok_iff.mp ht)).2
    exact hchoice
  | member he =>
    obtain ⟨m, -, -, -, rfl⟩ := exists_member_of_accept hread
    exact (reading_member he).legible_of_restores rfl rfl (by simp) h
  | integers shape => exact reading_integer.legible_of_restores_sequence h
  | booleans => exact reading_boolean.legible_of_restores_sequence h
  | members he => exact (reading_member he).legible_of_restores_sequence h

/-- **A faithful type restores the accepted values that can be read, and no others.** -/
theorem restores_iff_legible {τ : OptionType} {v w : Value} (hτ : Faithful τ)
    (hv : accept τ (τ.unflatten v) = .ok w) : Restores τ w ↔ Legible τ w :=
  ⟨legible_of_restores hτ, restores_of_legible hτ hv⟩

end ScanJobs.OptionType
