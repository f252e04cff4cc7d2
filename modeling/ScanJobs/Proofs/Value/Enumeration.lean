import ScanJobs.Value.Printer

/-! # Members of enumerations

How the members of an enumeration are written: integers as such (`OfIntegers.plainMember_eq`), all
others under their full names (`plainMember_of_holds`). -/

namespace ScanJobs.Enumeration

/-- The member is one of the enumeration. -/
def Holds (e : Enumeration) (m : Member) : Prop :=
  ∃ entry ∈ e.members, e.member entry = m

/-- The member is the one that stands for its payload. -/
def Owns (e : Enumeration) (m : Member) : Prop :=
  e.ofPayload? m.payload = some m

/-- The family and the name of a member. -/
def fullName (e : Enumeration) (m : Member) : String :=
  e.family ++ "." ++ m.name

/-- The members are integers themselves. -/
structure OfIntegers (e : Enumeration) : Prop where
  transparent : e.transparent = true
  payloads : ∀ entry ∈ e.members, ∃ n, entry.2 = .int n

/-- The members are plain, or texts themselves. -/
def NoIntegers (e : Enumeration) : Prop :=
  e.transparent = true → ∀ entry ∈ e.members, ∃ s, entry.2 = .text s

theorem ofPayload?_eq_some {e : Enumeration} {p : Payload} {m : Member}
    (h : e.ofPayload? p = some m) : ∃ entry ∈ e.members, entry.2 = p ∧ e.member entry = m := by
  obtain ⟨entry, hentry, rfl⟩ := Option.map_eq_some_iff.mp h
  exact ⟨entry, List.mem_of_find?_eq_some hentry, by simpa using List.find?_some hentry, rfl⟩

theorem owns_of_ofPayload? {e : Enumeration} {p : Payload} {m : Member}
    (h : e.ofPayload? p = some m) : e.Owns m := by
  obtain ⟨entry, -, rfl, rfl⟩ := ofPayload?_eq_some h
  exact h

theorem Owns.transparent_eq {e : Enumeration} {m : Member} (h : e.Owns m) :
    m.transparent = e.transparent := by
  obtain ⟨entry, -, -, rfl⟩ := ofPayload?_eq_some h
  rfl

/-! ### Integers -/

/-- An integer enumeration has no member for a text. -/
theorem OfIntegers.ofPayload?_text {e : Enumeration} (h : e.OfIntegers) (s : String) :
    e.ofPayload? (.text s) = none := by
  refine Option.eq_none_iff_forall_ne_some.mpr fun m hm => ?_
  obtain ⟨entry, hentry, hs, -⟩ := ofPayload?_eq_some hm
  obtain ⟨n, hn⟩ := h.payloads entry hentry
  rw [hn] at hs
  cases hs

/-- Its members are written as the integers that they are. -/
theorem OfIntegers.plainMember_eq {e : Enumeration} (h : e.OfIntegers) {m : Member}
    (hm : e.Owns m) : ∃ n : Int, m.payload = .int n ∧ Value.plainMember m = toString n := by
  obtain ⟨entry, hentry, -, rfl⟩ := ofPayload?_eq_some hm
  obtain ⟨n, hn⟩ := h.payloads entry hentry
  refine ⟨n, hn, ?_⟩
  rw [Value.plainMember, member, h.transparent, hn]

/-! ### Other members -/

/-- If the members are texts themselves, none stands for an integer. -/
theorem NoIntegers.ofPayload?_int {e : Enumeration} (h : e.NoIntegers) (ht : e.transparent = true)
    (n : Int) : e.ofPayload? (.int n) = none := by
  refine Option.eq_none_iff_forall_ne_some.mpr fun m hm => ?_
  obtain ⟨entry, hentry, hn, -⟩ := ofPayload?_eq_some hm
  obtain ⟨s, hs⟩ := h ht entry hentry
  rw [hs] at hn
  cases hn

/-- Other members are written under their full names. -/
theorem plainMember_of_holds {e : Enumeration} (he : e.NoIntegers) {m : Member} (hm : e.Holds m) :
    Value.plainMember m = e.fullName m := by
  obtain ⟨entry, hentry, rfl⟩ := hm
  unfold Value.plainMember
  split
  · next n ht hn =>
    obtain ⟨s, hs⟩ := he ht entry hentry
    cases hs.symm.trans hn
  · rfl

end ScanJobs.Enumeration
