import ScanJobs.Proofs.Counters

/-! # Counting in parts

Counts that are made in turn add what their deltas stand for (`makeAll_eq_ok_iff`), and merging counters
adds what is listed in them (`mergeAll_eq`). Both are sums over places, in which neither the order of the
summands nor how they are put together is seen. So counts may be distributed over several counters and
these merged in any order: it comes to what making all counts on one comes to (`counting_in_parts`). -/

namespace ScanJobs.Counters

open Text

/-! ### Counts -/

/-- **A count**: a call that adds to a counter. -/
structure Count where
  group : String
  name : String
  delta : Value

namespace Count

/-- Adds what the delta stands for to the counter. -/
def make (k : Count) : Act Counters Unit :=
  increment k.group k.name k.delta

/-- The count names a counter, and its delta stands for an integer. -/
structure Accepted (k : Count) : Prop where
  group : isBlank k.group = false
  name : isBlank k.name = false
  delta : integerOf k.delta = .ok (amount k.delta)

/-- Where the count adds, and what. -/
def entry (k : Count) : String × String × Int :=
  (k.group, k.name, amount k.delta)

theorem amount_eq {delta : Value} {n : Int} (h : integerOf delta = .ok n) : amount delta = n := by
  rw [amount, h]
  rfl

theorem make_eq_ok_iff {k : Count} {c c' : Counters} :
    k.make.on c = (.ok (), c') ↔ k.Accepted ∧ c' = c.add k.group k.name (amount k.delta) := by
  rw [make, increment_eq_ok_iff]
  constructor
  · rintro ⟨hgroup, hname, ⟨n, hn⟩, hc⟩
    exact ⟨⟨hgroup, hname, by rw [amount_eq hn, hn]⟩, hc⟩
  · rintro ⟨⟨hgroup, hname, hdelta⟩, hc⟩
    exact ⟨hgroup, hname, ⟨_, hdelta⟩, hc⟩

/-- **A count touches no counter but its own**, even if it is refused. -/
theorem get?_make {k : Count} {g n : String} (h : ¬ (k.group = g ∧ k.name = n)) (c : Counters) :
    ((k.make.on c).2.group g).get? n = (c.group g).get? n := by
  unfold make
  rcases increment_cases k.group k.name k.delta c with
    ⟨-, hon⟩ | ⟨-, -, ⟨m, -, hon⟩ | ⟨f, -, hon⟩⟩
  · rw [hon]
  · rw [hon, get?_add, if_neg h]
  · rw [hon, group_openGroup]

end Count

/-- Makes counts in turn. -/
def makeAll (ks : List Count) : Act Counters Unit :=
  ks.forM Count.make

/-- **Counts are made exactly if each is accepted**, and then their entries are added. -/
theorem makeAll_eq_ok_iff {ks : List Count} {c c' : Counters} :
    (makeAll ks).on c = (.ok (), c') ↔
      (∀ k ∈ ks, k.Accepted) ∧ c' = addAll (ks.map Count.entry) c := by
  induction ks generalizing c with
  | nil =>
    constructor
    · intro h
      cases h
      exact ⟨by simp, rfl⟩
    · rintro ⟨-, rfl⟩
      rfl
  | cons k ks ih =>
    constructor
    · intro h
      rcases Act.on_bind_cases h with ⟨f, -, hf⟩ | ⟨u, c₁, hfirst, hrest⟩
      · cases hf
      · obtain ⟨hk, rfl⟩ := Count.make_eq_ok_iff.mp hfirst
        obtain ⟨hks, hc⟩ := ih.mp hrest
        exact ⟨List.forall_mem_cons.mpr ⟨hk, hks⟩, hc⟩
    · rintro ⟨hall, hc⟩
      obtain ⟨hk, hks⟩ := List.forall_mem_cons.mp hall
      exact (Act.on_bind_ok (Count.make_eq_ok_iff.mpr ⟨hk, rfl⟩)).trans (ih.mpr ⟨hks, hc⟩)

theorem counted_of_makeAll {ks : List Count} {c : Counters}
    (h : (makeAll ks).on empty = (.ok (), c)) : c.Counted := by
  have hkept := Act.keeps_forM (fun k : Count => keeps_increment k.group k.name k.delta) ks empty .none
  change ((makeAll ks).on empty).2.Counted at hkept
  rw [h] at hkept
  exact hkept

/-- **What counts come to** at a counter: the sum of what the deltas of those that are made there
stand for. -/
def sumAt (ks : List Count) (g n : String) : Int :=
  ((ks.filter fun k => k.group = g ∧ k.name = n).map fun k => amount k.delta).sum

theorem sumOf_entries (ks : List Count) (g n : String) :
    sumOf (ks.map Count.entry) g n = sumAt ks g n := by
  induction ks with
  | nil => rfl
  | cons k ks ih =>
    have hcons : sumOf ((k :: ks).map Count.entry) g n =
        single k.group k.name (amount k.delta) g n + sumOf (ks.map Count.entry) g n := List.sum_cons
    rw [hcons, ih, sumAt, sumAt, single, List.filter_cons]
    by_cases hplace : k.group = g ∧ k.name = n <;> simp [hplace]

theorem value_of_makeAll {ks : List Count} {c c' : Counters} (h : (makeAll ks).on c = (.ok (), c'))
    (g n : String) : c'.value g n = c.value g n + sumAt ks g n := by
  obtain ⟨-, rfl⟩ := makeAll_eq_ok_iff.mp h
  rw [value_addAll, sumOf_entries]

/-! ### Merging several counters -/

/-- Merges counters in turn. -/
def mergeAll (ds : List Counters) : Act Counters Unit :=
  ds.forM fun d => merge d.toGroups

/-- **Counters with names can be merged in any order**: all that is listed in them is added. -/
theorem mergeAll_eq {ds : List Counters} (h : ∀ d ∈ ds, d.Named) (c : Counters) :
    (mergeAll ds).on c = (.ok (), addAll (ds.flatMap listed) c) := by
  induction ds generalizing c with
  | nil => rfl
  | cons d ds ih =>
    obtain ⟨hd, hds⟩ := List.forall_mem_cons.mp h
    rw [List.flatMap_cons, addAll_append]
    exact (Act.on_bind_ok (merge_eq hd c)).trans (ih hds _)

/-- Entries at the same places that come to the same sums make the same map. -/
theorem mapping_addAll_eq {es es' : List (String × String × Int)}
    (hplace : ∀ g n, (∃ e ∈ es, e.1 = g ∧ e.2.1 = n) ↔ ∃ e ∈ es', e.1 = g ∧ e.2.1 = n)
    (hsum : ∀ g n, sumOf es g n = sumOf es' g n) :
    (addAll es empty).mapping = (addAll es' empty).mapping := by
  have hopens : ∀ (es : List (String × String × Int)) (g : String),
      (addAll es empty).Opens g ↔ ∃ n, ∃ e ∈ es, e.1 = g ∧ e.2.1 = n := by
    intro es g
    rw [opens_addAll, or_iff_right (not_opens_empty g)]
    exact ⟨fun ⟨e, he, hg⟩ => ⟨e.2.1, e, he, hg, rfl⟩, fun ⟨_, e, he, hg, _⟩ => ⟨e, he, hg⟩⟩
  refine mapping_ext (fun g => ?_) (fun g n => ?_) fun g n => ?_
  · rw [hopens, hopens]
    simp only [hplace]
  · rw [has_addAll, has_addAll, or_iff_right (not_has_empty g n), or_iff_right (not_has_empty g n)]
    exact hplace g n
  · rw [value_addAll, value_addAll, hsum]

/-- The value of a counter is seen in the map. -/
theorem value_eq_mapping (c : Counters) (g n : String) :
    c.value g n = ((c.mapping g).bind fun names => names n).getD 0 := by
  unfold value group mapping
  cases c.groups.get? g <;> rfl

/-! ### Parts -/

/-- The counters on which these counts were made. -/
def tallied (ks : List Count) : Counters :=
  addAll (ks.map Count.entry) empty

theorem exists_has_tallied {parts : List (List Count)} {g n : String} :
    (∃ d ∈ parts.map tallied, d.Has g n) ↔ ∃ k ∈ parts.flatten, k.group = g ∧ k.name = n := by
  have hpart : ∀ part, (tallied part).Has g n ↔ ∃ k ∈ part, k.group = g ∧ k.name = n := by
    intro part
    rw [tallied, has_addAll, or_iff_right (not_has_empty g n)]
    simp [Count.entry]
  constructor
  · rintro ⟨d, hd, hhas⟩
    obtain ⟨part, hmem, rfl⟩ := List.mem_map.mp hd
    obtain ⟨k, hk, hplace⟩ := (hpart part).mp hhas
    exact ⟨k, List.mem_flatten.mpr ⟨part, hmem, hk⟩, hplace⟩
  · rintro ⟨k, hk, hplace⟩
    obtain ⟨part, hmem, hk⟩ := List.mem_flatten.mp hk
    exact ⟨_, List.mem_map_of_mem hmem, (hpart part).mpr ⟨k, hk, hplace⟩⟩

/-- The parts come to what the whole comes to. -/
theorem sum_tallied (parts : List (List Count)) (g n : String) :
    ((parts.map tallied).map fun d => d.value g n).sum = sumAt parts.flatten g n := by
  induction parts with
  | nil => rfl
  | cons part parts ih =>
    have hpart : (tallied part).value g n = sumAt part g n := by
      rw [tallied, value_addAll, value_empty, Int.zero_add, sumOf_entries]
    have happend : sumAt (part ++ parts.flatten) g n = sumAt part g n + sumAt parts.flatten g n := by
      rw [sumAt, List.filter_append, List.map_append, List.sum_append, sumAt, sumAt]
    rw [List.map_cons, List.map_cons, List.sum_cons, ih, hpart, List.flatten_cons, happend]

/-- The order of counts is not seen in what they come to. -/
theorem sumAt_perm {ks ks' : List Count} (h : ks.Perm ks') (g n : String) :
    sumAt ks g n = sumAt ks' g n :=
  ((h.filter _).map _).sum_eq

/-- **The parts, merged in any order, are the whole.** -/
theorem mapping_merged {ks : List Count} {parts : List (List Count)} (hparts : parts.flatten.Perm ks)
    {order : List Counters} (horder : order.Perm (parts.map tallied)) :
    (addAll (order.flatMap listed) empty).mapping = (tallied ks).mapping := by
  refine mapping_addAll_eq (fun g n => ?_) fun g n => ?_
  · calc (∃ e ∈ order.flatMap listed, e.1 = g ∧ e.2.1 = n)
      _ ↔ ∃ d ∈ order, d.Has g n := exists_mem_flatMap_listed
      _ ↔ ∃ d ∈ parts.map tallied, d.Has g n := by simp only [horder.mem_iff]
      _ ↔ ∃ k ∈ parts.flatten, k.group = g ∧ k.name = n := exists_has_tallied
      _ ↔ ∃ k ∈ ks, k.group = g ∧ k.name = n := by simp only [hparts.mem_iff]
      _ ↔ ∃ e ∈ ks.map Count.entry, e.1 = g ∧ e.2.1 = n := by simp [Count.entry]
  · calc sumOf (order.flatMap listed) g n
      _ = (order.map fun d => d.value g n).sum := sumOf_flatMap_listed order g n
      _ = ((parts.map tallied).map fun d => d.value g n).sum := (horder.map _).sum_eq
      _ = sumAt parts.flatten g n := sum_tallied parts g n
      _ = sumAt ks g n := sumAt_perm hparts g n
      _ = sumOf (ks.map Count.entry) g n := (sumOf_entries ks g n).symm

/-- **Counting in parts is counting at once.** If counts can be made, then however they are distributed
over several counters, they can be made there too, and these can be merged in any order: the result is the
same map as that of making all counts on one, and the value at each place is the sum of the integers that
the deltas of the counts there stand for. No count changes a counter of another name. -/
theorem counting_in_parts {ks : List Count} {whole : Counters}
    (h : (makeAll ks).on empty = (.ok (), whole)) {parts : List (List Count)}
    (hparts : parts.flatten.Perm ks) :
    (∃ ds, List.Forall₂ (fun part d => (makeAll part).on empty = (.ok (), d)) parts ds ∧
      ∀ order : List Counters, order.Perm ds → ∃ sum, (mergeAll order).on empty = (.ok (), sum) ∧
        sum.mapping = whole.mapping ∧ ∀ g n, sum.value g n = whole.value g n) ∧
    (∀ k ∈ ks, integerOf k.delta = .ok (amount k.delta)) ∧
    (∀ g n, whole.value g n = sumAt ks g n) ∧
    ∀ (k : Count) (c : Counters) (g n : String), ¬ (k.group = g ∧ k.name = n) →
      ((k.make.on c).2.group g).get? n = (c.group g).get? n := by
  obtain ⟨haccepted, rfl⟩ := makeAll_eq_ok_iff.mp h
  have hmade : ∀ part ∈ parts, (makeAll part).on empty = (.ok (), tallied part) := fun part hpart =>
    makeAll_eq_ok_iff.mpr ⟨fun k hk =>
      haccepted k (hparts.mem_iff.mp (List.mem_flatten.mpr ⟨part, hpart, hk⟩)), rfl⟩
  refine ⟨⟨parts.map tallied, ?_, fun order horder => ?_⟩, fun k hk => (haccepted k hk).delta,
    fun g n => ?_, fun k c g n hne => Count.get?_make hne c⟩
  · rw [List.forall₂_map_right_iff, List.forall₂_same]
    exact hmade
  · have hnamed : ∀ d ∈ order, d.Named := by
      intro d hd
      obtain ⟨part, hpart, rfl⟩ := List.mem_map.mp (horder.mem_iff.mp hd)
      exact (counted_of_makeAll (hmade part hpart)).named
    have hmapping := mapping_merged hparts horder
    refine ⟨_, mergeAll_eq hnamed empty, hmapping, fun g n => ?_⟩
    rw [value_eq_mapping, hmapping, ← value_eq_mapping]
    rfl
  · rw [value_of_makeAll h, value_empty, Int.zero_add]

/-- Counts in two groups, of 2, -1.5, a text and a truth value. -/
def fourCounts : List Count :=
  [⟨"rows", "read", .int 2⟩, ⟨"rows", "read", .float ⟨0xBFF8000000000000⟩⟩,
    ⟨"jobs", "read", .text " 1_0 "⟩, ⟨"rows", "read", .bool true⟩]

/-- Every other count is made on a second counter, which is merged first. Fractions are dropped before
anything is added. -/
theorem fourCounts_in_two_parts :
    ∃ d d' sum, (makeAll [⟨"rows", "read", .int 2⟩, ⟨"jobs", "read", .text " 1_0 "⟩]).on empty =
        (.ok (), d) ∧
      (makeAll [⟨"rows", "read", .float ⟨0xBFF8000000000000⟩⟩, ⟨"rows", "read", .bool true⟩]).on
        empty = (.ok (), d') ∧
      (mergeAll [d', d]).on empty = (.ok (), sum) ∧
      sum.value "rows" "read" = 2 ∧ sum.value "jobs" "read" = 10 := by
  have hmade : (makeAll fourCounts).on empty = (.ok (), tallied fourCounts) := by
    rfl
  have hparts : [[⟨"rows", "read", .int 2⟩, ⟨"jobs", "read", .text " 1_0 "⟩],
      [⟨"rows", "read", .float ⟨0xBFF8000000000000⟩⟩,
        ⟨"rows", "read", .bool true⟩]].flatten.Perm fourCounts := .cons _ (.swap ..)
  obtain ⟨⟨ds, hds, hmerge⟩, -, hvalue, -⟩ := counting_in_parts hmade hparts
  cases hds with
  | cons hd hds =>
    cases hds with
    | cons hd' hds =>
      cases hds
      obtain ⟨sum, hsum, -, hsame⟩ := hmerge _ (.swap ..)
      refine ⟨_, _, sum, hd, hd', hsum, ?_, ?_⟩
      · rw [hsame, hvalue]
        rfl
      · rw [hsame, hvalue]
        rfl

end ScanJobs.Counters
