import ScanJobs.Proofs.OptionType.Restoring
import ScanJobs.Proofs.Value.Enumeration
import ScanJobs.Proofs.Value.Grounds

/-! # Types whose values are lost

Members that are no integers are written under their full names but read by their payloads, so one is
restored exactly if its payload is its full name (`restores_member_iff`, `restores_members_iff`). An
optional type reads neither nothing nor a sequence (`restores_optional_iff`). A union takes a text
that is a value of one of its types as it is, and leaves all others to the first type that reads them
(`restores_union_iff`). -/

namespace ScanJobs.OptionType

open Text

/-! ### Members -/

theorem accept_member_text_iff {e : Enumeration} (he : e.NoIntegers) {s : String} {m : Member} :
    accept (.member e) (.text s) = .ok (.member m) ↔ e.ofPayload? (.text s) = some m := by
  -- a text that is no payload is tried as an integer, in vain
  have hfallback : (payloadOf?.fallback e (.text s)).bind e.ofPayload? = none := by
    unfold payloadOf?.fallback
    split
    · next ht =>
      cases integerOf? (.text s) with
      | none => rfl
      | some n => exact he.ofPayload?_int ht n
    · rfl
  have hread : memberOf? e (.text s) = e.ofPayload? (.text s) := by
    have hpayload : memberOf? e (.text s) = (payloadOf? e (.text s)).bind e.ofPayload? := rfl
    have hwritten : (if e.transparent then writing? (.text s) else (Value.text s).text?) =
        some s := by
      split <;> rfl
    rw [hpayload, payloadOf?, hwritten]
    simp only
    split
    · rfl
    · next hno =>
      rw [hfallback]
      exact (Option.not_isSome_iff_eq_none.mp hno).symm
  rw [accept, hread, map_eq_ok_iff]
  simp [required_eq_ok_iff]

theorem isStorable_of_holds {e : Enumeration} (he : e.NoIntegers) {m : Member} (hm : e.Holds m) :
    (Value.member m).isStorable = true := by
  obtain ⟨entry, hentry, rfl⟩ := hm
  refine Value.isStorable_member_iff.mpr fun ht n hn => ?_
  obtain ⟨s, hs⟩ := he ht entry hentry
  cases hs.symm.trans hn

/-- **A member is restored exactly if its payload is its full name.** -/
theorem restores_member_iff {e : Enumeration} (he : e.NoIntegers) {m : Member} (hm : e.Holds m) :
    Restores (.member e) (.member m) ↔ e.ofPayload? (.text (e.fullName m)) = some m := by
  have hflat : flatten (.member m) = .ok (e.fullName m) := by
    rw [← Enumeration.plainMember_of_holds he hm]
    exact (flattenIn_whole_eq_ok_iff (w := .member m) rfl nofun).mpr ⟨isStorable_of_holds he hm, rfl⟩
  rw [restores_iff hflat, unflatten_of_not_sequence rfl, accept_member_text_iff he]

/-! ### Sequences of members -/

theorem ground?_member {m : Member} (hm : m.transparent = false) :
    (Value.member m).ground? = none := by
  obtain ⟨family, name, payload, transparent⟩ := m
  subst hm
  cases payload <;> rfl

/-- There is at most one plain member in a set that can be sorted. -/
theorem length_le_of_sortItems {l : Value.Listing} {ms : List Member}
    (hms : ∀ m ∈ ms, m.transparent = false) {ys : List Value}
    (h : sortItems l (ms.map .member) = .ok ys) : ms.length ≤ 1 := by
  have hperm := l.perm (ms.map .member)
  have hmember : ∀ x ∈ l.of (ms.map .member), ∃ m ∈ ms, .member m = x :=
    fun x hx => List.mem_map.mp (hperm.mem_iff.mp hx)
  have hrows : ∀ x ∈ l.of (ms.map .member), x.isRow = false := by
    intro x hx
    obtain ⟨m, -, rfl⟩ := hmember x hx
    rfl
  have hlength : (l.of (ms.map .member)).length = ms.length := by
    rw [hperm.length_eq, List.length_map]
  rcases (Value.sorted_eq_ok_iff hrows).mp ⟨ys, sortItems_eq_ok_iff.mp h⟩ with hone | ⟨g, hg⟩
  · exact hlength ▸ hone
  · rw [← hlength]
    -- a plain member is compared as nothing
    cases hxs : l.of (ms.map .member) with
    | nil => exact Nat.zero_le 1
    | cons x xs =>
      have hx : x ∈ l.of (ms.map .member) := by
        rw [hxs]
        exact List.mem_cons_self ..
      obtain ⟨m, hm, rfl⟩ := hmember x hx
      cases (ground?_member (hms m hm)).symm.trans (hg _ hx)

theorem eq_of_perm_of_length_le {xs ys : List Value} (h : ys.Perm xs) (hlength : xs.length ≤ 1) :
    ys = xs := by
  match xs, hlength with
  | [], _ => exact h.eq_nil
  | [x], _ => exact List.perm_singleton.mp h

/-- A container of plain members is written with their full names. -/
theorem flatten_members {shape : Shape} {ms : List Member} (hms : ∀ m ∈ ms, m.transparent = false)
    (hitems : (shape.wrap (ms.map .member)).items? = some (ms.map .member)) {s : String}
    (h : flatten (shape.wrap (ms.map .member)) = .ok s) :
    s = flattenItems (ms.map .member) ∧ (shape.isSet = true → ms.length ≤ 1) := by
  obtain ⟨ys, hperm, rfl⟩ := exists_perm_of_flatten hitems h
  have hset : shape.isSet = true → ms.length ≤ 1 := by
    intro hshape
    have hunordered : (shape.wrap (ms.map .member)).unordered? = some (ms.map .member) := by
      rw [← hitems]
      cases shape with
      | list | tuple => cases hshape
      | set | frozenset => rfl
    rw [flatten, flattenIn_of_unordered hunordered] at h
    obtain ⟨zs, hzs, -⟩ := bind_eq_ok_iff.mp h
    exact length_le_of_sortItems hms hzs
  refine ⟨?_, hset⟩
  cases shape with
  | list | tuple => exact (writeItems_eq_ok_iff.mp h).2
  | set | frozenset =>
    rw [eq_of_perm_of_length_le hperm (by rw [List.length_map]; exact hset rfl)]

/-- Containers of one item, or lists, hold what they are made of. -/
theorem wrap_inj {shape : Shape} {xs ys : List Value} (hlength : xs.length = ys.length)
    (hone : shape.isSet = true → ys.length ≤ 1) (h : shape.wrap xs = shape.wrap ys) : xs = ys := by
  have hsingle : shape.isSet = true → Value.setItems xs = Value.setItems ys → xs = ys := by
    intro hset hitems
    have hle := hone hset
    cases ys with
    | nil => exact List.length_eq_zero_iff.mp hlength
    | cons y ys =>
      obtain rfl : ys = [] := by simpa using hle
      obtain ⟨x, rfl⟩ := List.length_eq_one_iff.mp hlength
      have hself : ∀ z : Value, Value.setItems [z] = [z] := fun z => List.mergeSort_singleton _
      rw [hself, hself] at hitems
      exact hitems
  cases shape with
  | list => exact Value.list.inj h
  | tuple => exact Value.tuple.inj h
  | set => exact hsingle rfl (Value.set.inj h)
  | frozenset => exact hsingle rfl (Value.frozenset.inj h)

/-- **A sequence of plain members is restored exactly if the payload of each is its full name.** -/
theorem restores_members_iff {shape : Shape} {e : Enumeration} (he : e.transparent = false)
    {ms : List Member} (hms : ∀ m ∈ ms, e.Holds m) (hpiece : ∀ m ∈ ms, Piece (e.fullName m))
    (hitems : (shape.wrap (ms.map .member)).items? = some (ms.map .member)) {s : String}
    (h : flatten (shape.wrap (ms.map .member)) = .ok s) :
    Restores (.sequence shape (.member e)) (shape.wrap (ms.map .member)) ↔
      ∀ m ∈ ms, e.ofPayload? (.text (e.fullName m)) = some m := by
  have hno : e.NoIntegers := fun ht => by cases ht.symm.trans he
  have hplain : ∀ m ∈ ms, m.transparent = false := by
    intro m hm
    obtain ⟨entry, -, rfl⟩ := hms m hm
    exact he
  obtain ⟨rfl, hone⟩ := flatten_members hplain hitems h
  have htexts : (ms.map Value.member).map Value.plain = ms.map e.fullName := by
    rw [List.map_map]
    exact List.map_congr_left fun m hm => Enumeration.plainMember_of_holds hno (hms m hm)
  have hps : ∀ p ∈ ms.map e.fullName, Piece p := by
    intro p hp
    obtain ⟨m, hm, rfl⟩ := List.mem_map.mp hp
    exact hpiece m hm
  have hitem : ∀ m, (accept (.member e) (.text (e.fullName m)) >>= itemFor shape) =
      .ok (.member m) ↔ e.ofPayload? (.text (e.fullName m)) = some m := by
    intro m
    rw [← accept_member_text_iff hno, bind_eq_ok_iff]
    constructor
    · rintro ⟨v, hv, hi⟩
      obtain ⟨-, rfl⟩ := itemFor_eq_ok_iff.mp hi
      exact hv
    · exact fun hv => ⟨_, hv, itemFor_leaf rfl shape⟩
  -- the flat form is taken apart into the full names again, and each is read on its own
  rw [restores_iff h, flattenItems, htexts, accept_join_eq_ok_iff hps]
  constructor
  · rintro ⟨xs, hxs, hwrap⟩
    have hlength : xs.length = (ms.map Value.member).length := by
      have := congrArg List.length hxs
      simpa using this.symm
    obtain rfl := wrap_inj hlength (by simpa using hone) hwrap
    intro m hm
    rw [← hitem]
    rw [List.map_map, List.map_map] at hxs
    exact List.map_inj_left.mp hxs m hm
  · intro hall
    refine ⟨ms.map .member, ?_, rfl⟩
    rw [List.map_map, List.map_map]
    exact List.map_congr_left fun m hm => (hitem m).mpr (hall m hm)

/-! ### Optional types -/

/-- No text stands for nothing. -/
theorem accept_text_ne_none : ∀ {τ : OptionType} {s : String}, accept τ (.text s) ≠ .ok .none
  | .optional τ, s, h => by
    rw [accept_optional (by simp)] at h
    exact accept_text_ne_none h
  | .union τ₁ τ₂, s, h => by
    unfold accept at h
    split at h
    · exact accept_text_ne_none h
    · split at h
      · next h₁ =>
        cases h
        exact accept_text_ne_none h₁
      · exact accept_text_ne_none (mapError_eq_ok_iff.mp h)
  | .any, s, h | .text, s, h | .integer, s, h | .float, s, h | .boolean, s, h | .member e, s, h
  | .literal _, s, h | .sequence _ _, s, h | .record _, s, h | .map _ _, s, h => by
    rcases isExact_or_eq_of_accept_text h with he | he
    · simp [isExact] at he
    · cases he

/-- A sequence is no text. -/
theorem accept_text_ne_ok {τ : OptionType} (hτ : τ.isSequence = true) {s : String} {w : Value} :
    accept τ (.text s) ≠ .ok w := by
  intro h
  cases τ with
  | sequence shape τ =>
    unfold accept at h
    cases h
  | record τs =>
    unfold accept at h
    cases h
  | _ => cases hτ

/-- **An optional type restores what its type does**, but no sequence and not nothing. -/
theorem restores_optional_iff {τ : OptionType} {w : Value} :
    Restores (.optional τ) w ↔ w ≠ .none ∧ τ.isSequence = false ∧ Restores τ w := by
  have hread : ∀ s, accept (.optional τ) (unflatten (.optional τ) (.text s)) =
      accept τ (.text s) := by
    intro s
    rw [unflatten_of_not_sequence rfl, accept_optional (by simp)]
  constructor
  · rintro ⟨s, hs, h⟩
    rw [hread] at h
    have hτ : τ.isSequence = false := by
      by_contra hτ
      exact accept_text_ne_ok (by simpa using hτ) h
    refine ⟨?_, hτ, s, hs, ?_⟩
    · rintro rfl
      exact accept_text_ne_none h
    · rw [unflatten_of_not_sequence hτ]
      exact h
  · rintro ⟨-, hτ, s, hs, h⟩
    refine ⟨s, hs, ?_⟩
    rw [unflatten_of_not_sequence hτ] at h
    rw [hread]
    exact h

/-! ### Unions -/

/-- The type reads the text, as one value or another. -/
def Reads (τ : OptionType) (s : String) : Prop :=
  ∃ u, accept τ (.text s) = .ok u

theorem accept_union_exact {τ₁ τ₂ : OptionType} {v : Value}
    (h : isExact τ₁ v = true ∨ isExact τ₂ v = true) : accept (.union τ₁ τ₂) v = .ok v :=
  accept_of_isExact (isExact_iff.mpr h)

theorem accept_union_iff {τ₁ τ₂ : OptionType} {v w : Value} (h₂ : isExact τ₂ v = false) :
    accept (.union τ₁ τ₂) v = .ok w ↔
      accept τ₁ v = .ok w ∨ (∀ u, accept τ₁ v ≠ .ok u) ∧ accept τ₂ v = .ok w := by
  rw [accept, h₂, Bool.and_false, if_neg Bool.false_ne_true]
  cases h₁ : accept τ₁ v with
  | ok u => simp
  | error n => simp [mapError_eq_ok_iff]

/-- **A union restores a value** if its flat form is a value of one of the types and the value itself,
or else if the first type that reads the flat form takes it for the value. -/
theorem restores_union_iff {τ₁ τ₂ : OptionType} {w : Value} {s : String} (h : flatten w = .ok s) :
    Restores (.union τ₁ τ₂) w ↔
      if isExact τ₁ (.text s) = true ∨ isExact τ₂ (.text s) = true then w = .text s
      else accept τ₁ (.text s) = .ok w ∨ ¬ Reads τ₁ s ∧ accept τ₂ (.text s) = .ok w := by
  rw [restores_iff h, unflatten_of_not_sequence rfl]
  split
  · next he =>
    rw [accept_union_exact he, Except.ok.injEq]
    exact eq_comm
  · next he =>
    rw [not_or, Bool.not_eq_true, Bool.not_eq_true] at he
    rw [accept_union_iff he.2, Reads, not_exists]

end ScanJobs.OptionType
