import ScanJobs.Proofs.Counters.Parts

/-! # Rejected counts

A count that is rejected touches no counter (`Untouched`). Merging makes the counts of its entries in turn
(`merge_eq_makeAll`), so it ends with the first that is rejected, and what was added before stays
(`part_merged_before_blank`). What is there after a rejected count or merge is told by
`rejected_touches_no_counter`. -/

namespace ScanJobs.Counters

open Text

/-- **No counter is touched** by a count. -/
structure Untouched (k : Count) (c c' : Counters) : Prop where
  /-- Every group has the same counters in the same order. -/
  group : ∀ g, c'.group g = c.group g
  /-- No other group comes or goes. -/
  groups : ∀ g, g ≠ k.group → c'.groups.get? g = c.groups.get? g
  /-- Nothing at all changes if a name is blank, or if the group is there already. -/
  same : isBlank k.group = true ∨ isBlank k.name = true ∨ c.Opens k.group → c' = c

theorem untouched_refl (k : Count) (c : Counters) : Untouched k c c :=
  ⟨fun _ => rfl, fun _ _ => rfl, fun _ => rfl⟩

theorem openGroup_of_opens {c : Counters} {g : String} (h : c.Opens g) : c.openGroup g = c := by
  obtain ⟨t, ht⟩ := h
  have hgroup : c.group g = t := by rw [group, ht, Option.getD_some]
  rw [openGroup, hgroup, Table.insert_of_get? ht]

theorem untouched_openGroup {k : Count} (hgroup : isBlank k.group = false)
    (hname : isBlank k.name = false) (c : Counters) : Untouched k c (c.openGroup k.group) where
  group := group_openGroup c k.group
  groups g hne := by rw [openGroup, Table.get?_insert, if_neg (Ne.symm hne)]
  same h := by
    rw [hgroup, hname] at h
    rcases h with h | h | h
    · cases h
    · cases h
    · exact openGroup_of_opens h

/-- **A rejected count touches no counter.** -/
theorem Count.untouched_of_error {k : Count} {c c' : Counters} {f : Failure}
    (h : k.make.on c = (.error f, c')) : Untouched k c c' := by
  unfold make at h
  rcases increment_cases k.group k.name k.delta c with
    ⟨-, hon⟩ | ⟨hgroup, hname, ⟨n, -, hon⟩ | ⟨f', -, hon⟩⟩
  · cases hon.symm.trans h
    exact untouched_refl k c
  · cases hon.symm.trans h
  · cases hon.symm.trans h
    exact untouched_openGroup hgroup hname c

/-- A count is rejected exactly if it is not accepted. -/
theorem Count.error_iff {k : Count} {c : Counters} :
    (∃ f, (k.make.on c).1 = .error f) ↔ ¬ k.Accepted := by
  rw [exists_error_iff]
  constructor
  · intro h hk
    exact h () (congrArg Prod.fst (make_eq_ok_iff.mpr ⟨hk, rfl⟩))
  · intro hk u hu
    exact hk (make_eq_ok_iff.mp (Prod.ext hu rfl)).1

/-! ### Merging -/

/-- The counts of entries, in turn. -/
def countsOf (groups : CounterGroups) : List Count :=
  groups.flatMap fun g => g.2.map fun e => ⟨g.1, e.1, e.2⟩

theorem makeAll_append (ks ks' : List Count) :
    makeAll (ks ++ ks') = makeAll ks >>= fun _ => makeAll ks' :=
  List.forM_append

/-- **Merging makes the counts of the entries.** -/
theorem merge_eq_makeAll (groups : CounterGroups) : merge groups = makeAll (countsOf groups) := by
  induction groups with
  | nil => rfl
  | cons g groups ih =>
    have hgroup : makeAll (g.2.map fun e => ⟨g.1, e.1, e.2⟩) =
        g.2.forM fun e => increment g.1 e.1 e.2 := List.forM_map
    rw [countsOf, List.flatMap_cons, ← countsOf, makeAll_append, hgroup, ← ih]
    rfl

/-- A merge fails exactly if some entry is not accepted. -/
theorem merge_error_iff {groups : CounterGroups} {c : Counters} :
    (∃ f, ((merge groups).on c).1 = .error f) ↔ ∃ k ∈ countsOf groups, ¬ k.Accepted := by
  rw [exists_error_iff, merge_eq_makeAll]
  constructor
  · intro h
    by_contra hall
    push Not at hall
    exact h () (congrArg Prod.fst (makeAll_eq_ok_iff.mpr ⟨hall, rfl⟩))
  · rintro ⟨k, hk, hnot⟩ u hu
    exact hnot ((makeAll_eq_ok_iff.mp (Prod.ext hu rfl)).1 k hk)

/-- **A rejected count touches no counter, and a merge ends with the first rejected count.** Up to it the
counts are made as they would be on their own, and it and what follows it touch no counter. -/
theorem rejected_touches_no_counter :
    (∀ (k : Count) (c : Counters), (∃ f, (k.make.on c).1 = .error f) ↔ ¬ k.Accepted) ∧
    (∀ (k : Count) (c c' : Counters) (f : Failure), k.make.on c = (.error f, c') →
      Untouched k c c') ∧
    (∀ (groups : CounterGroups) (c : Counters),
      (∃ f, ((merge groups).on c).1 = .error f) ↔ ∃ k ∈ countsOf groups, ¬ k.Accepted) ∧
    ∀ (groups : CounterGroups) (c c' : Counters) (f : Failure),
      (merge groups).on c = (.error f, c') →
      ∃ before k after c₁, countsOf groups = before ++ k :: after ∧
        (∀ k' ∈ before, k'.Accepted) ∧ ¬ k.Accepted ∧
        (makeAll before).on c = (.ok (), c₁) ∧ k.make.on c₁ = (.error f, c') ∧
        (∀ g n, c'.value g n = c.value g n + sumAt before g n) ∧ Untouched k c₁ c' := by
  refine ⟨fun _ _ => Count.error_iff, fun _ _ _ _ h => Count.untouched_of_error h,
    fun _ _ => merge_error_iff, fun groups c c' f h => ?_⟩
  rw [merge_eq_makeAll] at h
  obtain ⟨before, k, after, c₁, hcounts, hbefore, hk⟩ := Act.exists_of_forM_error h
  have huntouched := Count.untouched_of_error hk
  refine ⟨before, k, after, c₁, hcounts, (makeAll_eq_ok_iff.mp hbefore).1, ?_, hbefore, hk, ?_,
    huntouched⟩
  · exact Count.error_iff.mp ⟨f, congrArg Prod.fst hk⟩
  · intro g n
    rw [← value_of_makeAll hbefore, value, huntouched.group, ← value]

/-- Counters of two groups, of which the second is blank. -/
def withBlankGroup : CounterGroups :=
  [("rows", [("read", .int 1)]), (" ", [("read", .int 2)])]

/-- **Merging is not all or nothing**: what stands before a blank group has been added. -/
theorem part_merged_before_blank :
    ((merge withBlankGroup).on empty).1 = .error (.blank "counter group and name") ∧
      ((merge withBlankGroup).on empty).2.toGroups = [("rows", [("read", .int 1)])] ∧
      ((merge withBlankGroup).on empty).2.toGroups ≠ empty.toGroups := by
  refine ⟨rfl, rfl, ?_⟩
  intro h
  cases h

/-- A text among the deltas ends a merge after the entry before it. On its own it changes nothing, for
the group is there. -/
theorem rejected_text_touches_nothing :
    (∃ f, (Count.make ⟨"rows", "left", .text "x"⟩).on (tallied fourCounts) =
        (.error f, tallied fourCounts)) ∧
      ∃ f c, (merge [("rows", [("left", .int 5), ("read", .text "x"), ("gone", .int 1)])]).on
          (tallied fourCounts) = (.error f, c) ∧
        c.value "rows" "left" = 5 ∧ c.value "rows" "read" = 2 ∧ c.value "rows" "gone" = 0 := by
  obtain ⟨-, hmake, -, hmerge⟩ := rejected_touches_no_counter
  constructor
  · obtain ⟨f, c, hrun⟩ : ∃ f c, (Count.make ⟨"rows", "left", .text "x"⟩).on (tallied fourCounts) =
        (.error f, c) := ⟨_, _, rfl⟩
    have hopens : (tallied fourCounts).Opens "rows" := ⟨_, rfl⟩
    have hsame := (hmake _ _ _ _ hrun).same (.inr (.inr hopens))
    exact ⟨f, by rw [hrun, hsame]⟩
  · obtain ⟨f, c, hrun⟩ : ∃ f c, (merge [("rows", [("left", .int 5), ("read", .text "x"),
        ("gone", .int 1)])]).on (tallied fourCounts) = (.error f, c) := ⟨_, _, rfl⟩
    obtain ⟨before, k, after, c₁, hcounts, hbefore, hk, -, -, hvalue, -⟩ := hmerge _ _ _ _ hrun
    have hbefore : before = [⟨"rows", "left", .int 5⟩] := by
      cases before with
      | nil =>
        cases hcounts
        exact absurd ⟨rfl, rfl, rfl⟩ hk
      | cons k₁ before =>
        cases before with
        | nil =>
          cases hcounts
          rfl
        | cons k₂ before =>
          obtain rfl : ⟨"rows", "read", .text "x"⟩ = k₂ :=
            (List.cons.inj (List.cons.inj hcounts).2).1
          cases (hbefore ⟨"rows", "read", .text "x"⟩ (by simp)).delta
    refine ⟨f, c, hrun, ?_, ?_, ?_⟩ <;> rw [hvalue, hbefore] <;> rfl

end ScanJobs.Counters
