import ScanJobs.Counters
import ScanJobs.Proofs.Fallible
import ScanJobs.Proofs.Table
import Mathlib

/-! # Counting and adding up

Counting adds to counters (`Adds`): an increment to a single one (`adds_increment`), and merging other
counters to each what they have there (`merge_eq`, `sumOf_listed`). None of them may have a blank name,
and none that was counted has (`Counted.named`), so that they can always be merged. Counters are the same
map if they have the same groups and names with the same values (`mapping_ext`). -/

namespace ScanJobs.Counters

open Text

/-! ### Increments -/

/-- The integer that is added for a value, if it stands for one. -/
def amount (delta : Value) : Int :=
  (integerOf delta).toOption.getD 0

theorem group_openGroup (c : Counters) (group g : String) :
    (c.openGroup group).group g = c.group g := by
  unfold openGroup
  rw [group_set]
  split
  · next h => rw [h]
  · rfl

theorem group_add (c : Counters) (group name g : String) (n : Int) :
    (c.add group name n).group g =
      if group = g then (c.group group).insert name (c.value group name + n) else c.group g :=
  group_set ..

theorem add_openGroup (c : Counters) (group name : String) (n : Int) :
    (c.openGroup group).add group name n = c.add group name n := by
  have hinsert : ∀ t, (c.openGroup group).groups.insert group t = c.groups.insert group t :=
    fun t => Table.insert_insert c.groups group (c.group group) t
  rw [add, group_openGroup, value_openGroup, hinsert, add]

/-- **What an increment does**, by how it ends: nothing if a name is blank, and an addition if the value
stands for an integer. -/
theorem increment_cases (group name : String) (delta : Value) (c : Counters) :
    ((isBlank group || isBlank name) = true ∧
        (increment group name delta).on c = (.error (.blank "counter group and name"), c)) ∨
      (isBlank group = false ∧ isBlank name = false ∧
        ((∃ n, integerOf delta = .ok n ∧
            (increment group name delta).on c = (.ok (), c.add group name n)) ∨
          ∃ f, integerOf delta = .error f ∧
            (increment group name delta).on c = (.error f, c.openGroup group))) := by
  unfold increment
  cases hblank : isBlank group || isBlank name with
  | true => exact .inl ⟨rfl, rfl⟩
  | false =>
    obtain ⟨hgroup, hname⟩ := Bool.or_eq_false_iff.mp hblank
    refine .inr ⟨hgroup, hname, ?_⟩
    rw [if_neg Bool.false_ne_true, Act.on_bind_ok (Act.on_change _ _)]
    cases hdelta : integerOf delta with
    | error f => exact .inr ⟨f, rfl, Act.on_bind_error (Act.on_ofExcept _ _)⟩
    | ok n =>
      refine .inl ⟨n, rfl, ?_⟩
      rw [Act.on_bind_ok (Act.on_ofExcept _ _), Act.on_change, add_openGroup]

/-- **An increment adds the amount**, if neither name is blank and the value stands for an integer. -/
theorem increment_eq_ok_iff {group name : String} {delta : Value} {c c' : Counters} :
    (increment group name delta).on c = (.ok (), c') ↔
      isBlank group = false ∧ isBlank name = false ∧ (∃ n, integerOf delta = .ok n) ∧
        c' = c.add group name (amount delta) := by
  rcases increment_cases group name delta c with ⟨hblank, h⟩ | ⟨hgroup, hname, ⟨n, hn, h⟩ | ⟨f, hf, h⟩⟩
  · rw [h]
    refine ⟨nofun, ?_⟩
    rintro ⟨hgroup, hname, -⟩
    rw [hgroup, hname] at hblank
    cases hblank
  · rw [h, amount, hn]
    simp [hgroup, hname, eq_comm, Except.toOption]
  · rw [h, hf]
    simp

/-! ### Names -/

/-- No counter has a blank group or a blank name. -/
def Named (c : Counters) : Prop :=
  ∀ g n k, (c.group g).get? n = some k → isBlank g = false ∧ isBlank n = false

/-- **These counters were counted**, by increments from none on. -/
inductive Counted : Counters → Prop where
  | none : Counted empty
  | increment {c : Counters} (h : Counted c) (group name : String) (delta : Value) :
      Counted ((increment group name delta).on c).2

theorem keeps_increment (group name : String) (delta : Value) :
    (increment group name delta).Keeps Counted :=
  fun _ h => h.increment group name delta

theorem get?_add (c : Counters) (group name g n : String) (k : Int) :
    ((c.add group name k).group g).get? n =
      if group = g ∧ name = n then some (c.value g n + k) else (c.group g).get? n := by
  rw [group_add]
  by_cases hg : group = g
  · subst hg
    rw [if_pos rfl, Table.get?_insert]
    by_cases hn : name = n
    · subst hn
      simp
    · simp [hn]
  · simp [hg]

theorem Named.add {c : Counters} (h : c.Named) {group name : String} (hgroup : isBlank group = false)
    (hname : isBlank name = false) (k : Int) : (c.add group name k).Named := by
  intro g n k' hk
  rw [get?_add] at hk
  split at hk
  · next hplace =>
    obtain ⟨rfl, rfl⟩ := hplace
    exact ⟨hgroup, hname⟩
  · exact h g n k' hk

/-- **What was counted has names.** -/
theorem Counted.named {c : Counters} (h : c.Counted) : c.Named := by
  induction h with
  | none =>
    intro g n k hk
    cases hk
  | @increment c _ group name delta ih =>
    rcases increment_cases group name delta c with ⟨-, h⟩ | ⟨hgroup, hname, ⟨n, -, h⟩ | ⟨f, -, h⟩⟩
    · rw [h]
      exact ih
    · rw [h]
      exact ih.add hgroup hname n
    · rw [h]
      intro g n k hk
      rw [group_openGroup] at hk
      exact ih g n k hk

/-! ### Additions -/

/-- **All counters are in these groups**, and none has a blank name. -/
structure Within (groups : List String) (c : Counters) : Prop where
  group : ∀ g t, c.groups.get? g = some t → g ∈ groups
  name : ∀ g n k, (c.group g).get? n = some k → isBlank n = false

theorem within_empty (groups : List String) : Within groups empty :=
  ⟨nofun, nofun⟩

/-- **Counters with something added to each**, in these groups. -/
structure Adds (groups : List String) (x : String → String → Int) (c c' : Counters) : Prop where
  value : ∀ g n, c'.value g n = c.value g n + x g n
  within : Within groups c → Within groups c'

variable {groups : List String}

theorem Adds.refl (c : Counters) : Adds groups (fun _ _ => 0) c c :=
  ⟨fun _ _ => (Int.add_zero _).symm, id⟩

theorem Adds.trans {x y : String → String → Int} {c c' c'' : Counters} (h : Adds groups x c c')
    (h' : Adds groups y c' c'') : Adds groups (fun g n => x g n + y g n) c c'' where
  value g n := by rw [h'.value, h.value, Int.add_assoc]
  within hc := h'.within (h.within hc)

/-- What one addition adds. -/
def single (group name : String) (k : Int) (g n : String) : Int :=
  if group = g ∧ name = n then k else 0

theorem adds_add {group name : String} (hgroup : group ∈ groups) (hname : isBlank name = false)
    (k : Int) (c : Counters) : Adds groups (single group name k) c (c.add group name k) where
  value g n := value_add c group name g n k
  within hc := by
    constructor
    · intro g t ht
      unfold add at ht
      rw [Table.get?_insert] at ht
      split at ht
      · next hg => exact hg ▸ hgroup
      · exact hc.group g t ht
    · intro g n k' hk
      rw [get?_add] at hk
      split at hk
      · next hplace => exact hplace.2 ▸ hname
      · exact hc.name g n k' hk

theorem adds_increment {group name : String} (hgroup : group ∈ groups) {delta : Value}
    {c c' : Counters} (h : (increment group name delta).on c = (.ok (), c')) :
    Adds groups (single group name (amount delta)) c c' := by
  obtain ⟨-, hname, -, rfl⟩ := increment_eq_ok_iff.mp h
  exact adds_add hgroup hname (amount delta) c

/-! ### Entries -/

/-- All counters, one after the other. -/
def listed (c : Counters) : List (String × String × Int) :=
  c.groups.entries.flatMap fun g => g.2.entries.map fun e => (g.1, e.1, e.2)

/-- Adds entries in turn. -/
def addAll (es : List (String × String × Int)) (c : Counters) : Counters :=
  es.foldl (fun c e => c.add e.1 e.2.1 e.2.2) c

/-- What entries add. -/
def sumOf (es : List (String × String × Int)) (g n : String) : Int :=
  (es.map fun e => single e.1 e.2.1 e.2.2 g n).sum

theorem mem_listed {c : Counters} {g n : String} {k : Int} :
    (g, n, k) ∈ c.listed ↔ (c.group g).get? n = some k := by
  unfold listed
  rw [List.mem_flatMap]
  constructor
  · rintro ⟨⟨g', t⟩, ht, he⟩
    obtain ⟨⟨n', k'⟩, hk, heq⟩ := List.mem_map.mp he
    obtain ⟨rfl, hrest⟩ := Prod.mk.inj heq
    obtain ⟨rfl, rfl⟩ := Prod.mk.inj hrest
    have hget : c.groups.get? g' = some t := Table.get?_eq_some_iff.mpr ht
    rw [group, hget]
    exact Table.get?_eq_some_iff.mpr hk
  · intro h
    cases hget : c.groups.get? g with
    | none =>
      rw [group, hget] at h
      cases h
    | some t =>
      rw [group, hget] at h
      exact ⟨(g, t), Table.get?_eq_some_iff.mp hget,
        List.mem_map.mpr ⟨(n, k), Table.get?_eq_some_iff.mp h, rfl⟩⟩

theorem addAll_append (es es' : List (String × String × Int)) (c : Counters) :
    addAll (es ++ es') c = addAll es' (addAll es c) :=
  List.foldl_append ..

theorem value_addAll (es : List (String × String × Int)) (c : Counters) (g n : String) :
    (addAll es c).value g n = c.value g n + sumOf es g n := by
  induction es generalizing c with
  | nil => exact (Int.add_zero _).symm
  | cons e es ih =>
    have hsum : sumOf (e :: es) g n = single e.1 e.2.1 e.2.2 g n + sumOf es g n := List.sum_cons
    have hfirst := value_add c e.1 e.2.1 g n e.2.2
    calc (addAll es (c.add e.1 e.2.1 e.2.2)).value g n
      _ = (c.add e.1 e.2.1 e.2.2).value g n + sumOf es g n := ih _
      _ = c.value g n + single e.1 e.2.1 e.2.2 g n + sumOf es g n := by rw [hfirst, single]
      _ = c.value g n + sumOf (e :: es) g n := by rw [hsum, Int.add_assoc]

theorem adds_addAll {es : List (String × String × Int)}
    (hes : ∀ e ∈ es, e.1 ∈ groups ∧ isBlank e.2.1 = false) (c : Counters) :
    Adds groups (sumOf es) c (addAll es c) where
  value := value_addAll es c
  within hc := by
    induction es generalizing c with
    | nil => exact hc
    | cons e es ih =>
      obtain ⟨hgroup, hname⟩ := hes e (by simp)
      exact ih (fun e' he' => hes e' (List.mem_cons_of_mem _ he')) _
        ((adds_add hgroup hname e.2.2 c).within hc)

/-- There is a counter of these names. -/
def Has (c : Counters) (g n : String) : Prop :=
  ∃ k, (c.group g).get? n = some k

theorem has_add (c : Counters) (group name g n : String) (k : Int) :
    (c.add group name k).Has g n ↔ c.Has g n ∨ group = g ∧ name = n := by
  unfold Has
  rw [get?_add]
  split
  · next hplace => exact ⟨fun _ => .inr hplace, fun _ => ⟨_, rfl⟩⟩
  · next hplace => exact ⟨.inl, fun h => h.resolve_right hplace⟩

theorem has_addAll (es : List (String × String × Int)) (c : Counters) (g n : String) :
    (addAll es c).Has g n ↔ c.Has g n ∨ ∃ e ∈ es, e.1 = g ∧ e.2.1 = n := by
  induction es generalizing c with
  | nil => simp [addAll]
  | cons e es ih =>
    have hrest : (addAll (e :: es) c).Has g n ↔
        (c.add e.1 e.2.1 e.2.2).Has g n ∨ ∃ e ∈ es, e.1 = g ∧ e.2.1 = n := ih _
    rw [hrest, has_add, or_assoc, List.exists_mem_cons_iff]

theorem not_has_empty (g n : String) : ¬ empty.Has g n :=
  fun ⟨_, h⟩ => nomatch h

/-- There is a group of this name. -/
def Opens (c : Counters) (g : String) : Prop :=
  ∃ t, c.groups.get? g = some t

theorem opens_add (c : Counters) (group name g : String) (k : Int) :
    (c.add group name k).Opens g ↔ c.Opens g ∨ group = g := by
  unfold Opens add
  rw [Table.get?_insert]
  split
  · next hg => exact ⟨fun _ => .inr hg, fun _ => ⟨_, rfl⟩⟩
  · next hg => exact ⟨.inl, fun h => h.resolve_right hg⟩

theorem opens_addAll (es : List (String × String × Int)) (c : Counters) (g : String) :
    (addAll es c).Opens g ↔ c.Opens g ∨ ∃ e ∈ es, e.1 = g := by
  induction es generalizing c with
  | nil => simp [addAll]
  | cons e es ih =>
    have hrest : (addAll (e :: es) c).Opens g ↔
        (c.add e.1 e.2.1 e.2.2).Opens g ∨ ∃ e ∈ es, e.1 = g := ih _
    rw [hrest, opens_add, or_assoc, List.exists_mem_cons_iff]

theorem not_opens_empty (g : String) : ¬ empty.Opens g :=
  fun ⟨_, h⟩ => nomatch h

theorem Has.opens {c : Counters} {g n : String} (h : c.Has g n) : c.Opens g := by
  obtain ⟨k, hk⟩ := h
  unfold group at hk
  cases hget : c.groups.get? g with
  | none =>
    rw [hget] at hk
    cases hk
  | some t => exact ⟨t, hget⟩

/-! ### Counters as maps -/

/-- **The counters as a map of groups to maps of names to integers**, in which no order is seen. -/
def mapping (c : Counters) (g : String) : Option (String → Option Int) :=
  (c.groups.get? g).map Table.get?

theorem get?_group_iff {c : Counters} {g n : String} {k : Int} :
    (c.group g).get? n = some k ↔ c.Has g n ∧ c.value g n = k := by
  unfold Has value
  cases (c.group g).get? n <;> simp

theorem mapping_ext {c c' : Counters} (hopens : ∀ g, c.Opens g ↔ c'.Opens g)
    (hhas : ∀ g n, c.Has g n ↔ c'.Has g n) (hvalue : ∀ g n, c.value g n = c'.value g n) :
    c.mapping = c'.mapping := by
  have hgroup : ∀ g, (c.group g).get? = (c'.group g).get? := by
    intro g
    funext n
    apply Option.ext
    intro k
    rw [get?_group_iff, get?_group_iff, hhas, hvalue]
  funext g
  have hopen := hopens g
  have hget := hgroup g
  unfold Opens at hopen
  unfold mapping
  unfold group at hget
  cases hc : c.groups.get? g with
  | none =>
    cases hc' : c'.groups.get? g with
    | none => rfl
    | some t' => simp [hc, hc'] at hopen
  | some t =>
    cases hc' : c'.groups.get? g with
    | none => simp [hc, hc'] at hopen
    | some t' =>
      rw [hc, hc'] at hget
      exact congrArg some hget

/-! ### Merging -/

/-- In entries with distinct keys each key has one place. -/
theorem sum_entries {α : Type} {es : List (String × α)} (h : (es.map Prod.fst).Nodup)
    (f : α → Int) (k : String) :
    (es.map fun e => if e.1 = k then f e.2 else 0).sum = ((Table.find k es).map f).getD 0 := by
  induction es with
  | nil => rfl
  | cons e es ih =>
    obtain ⟨k', a⟩ := e
    rw [List.map_cons, List.nodup_cons] at h
    rw [List.map_cons, List.sum_cons, ih h.2, Table.find]
    by_cases hk : k' = k
    · subst hk
      simp [Table.find_eq_none h.1]
    · simp [hk]

/-- What entries come to under a name. -/
def total (name : String) (es : List (String × Int)) : Int :=
  (es.map fun e => if e.1 = name then e.2 else 0).sum

theorem total_entries (t : Table String Int) (name : String) :
    total name t.entries = (t.get? name).getD 0 := by
  have h := sum_entries t.nodup (fun n => n) name
  rw [Option.map_id_fun'] at h
  exact h

theorem value_eq_sum (c : Counters) (group name : String) :
    c.value group name =
      (c.groups.entries.map fun g => if g.1 = group then total name g.2.entries else 0).sum := by
  rw [sum_entries c.groups.nodup (fun t => total name t.entries) group]
  have hget : Table.find group c.groups.entries = c.groups.get? group := rfl
  rw [hget, value, Counters.group]
  simp only [total_entries]
  cases c.groups.get? group <;> rfl

theorem sumOf_append (es es' : List (String × String × Int)) (g n : String) :
    sumOf (es ++ es') g n = sumOf es g n + sumOf es' g n := by
  rw [sumOf, List.map_append, List.sum_append, sumOf, sumOf]

/-- The entries of counters add what is there. -/
theorem sumOf_listed (c : Counters) (g n : String) : sumOf c.listed g n = c.value g n := by
  have hgroup : ∀ (group : String) (es : List (String × Int)),
      sumOf (es.map fun e => (group, e.1, e.2)) g n = if group = g then total n es else 0 := by
    intro group es
    rw [sumOf, List.map_map, total]
    by_cases hg : group = g <;> simp [single, hg, Function.comp_def]
  have hall : ∀ gs : List (String × Table String Int),
      sumOf (gs.flatMap fun g' => g'.2.entries.map fun e => (g'.1, e.1, e.2)) g n =
        (gs.map fun g' => if g'.1 = g then total n g'.2.entries else 0).sum := by
    intro gs
    induction gs with
    | nil => rfl
    | cons g' gs ih =>
      rw [List.flatMap_cons, sumOf_append, hgroup, ih, List.map_cons, List.sum_cons]
  rw [listed, hall, ← value_eq_sum]

theorem sumOf_flatMap_listed (ds : List Counters) (g n : String) :
    sumOf (ds.flatMap listed) g n = (ds.map fun d => d.value g n).sum := by
  induction ds with
  | nil => rfl
  | cons d ds ih =>
    rw [List.flatMap_cons, sumOf_append, sumOf_listed, ih, List.map_cons, List.sum_cons]

theorem exists_mem_flatMap_listed {ds : List Counters} {g n : String} :
    (∃ e ∈ ds.flatMap listed, e.1 = g ∧ e.2.1 = n) ↔ ∃ d ∈ ds, d.Has g n := by
  constructor
  · rintro ⟨⟨_, _, k⟩, he, rfl, rfl⟩
    obtain ⟨d, hd, hk⟩ := List.mem_flatMap.mp he
    exact ⟨d, hd, k, mem_listed.mp hk⟩
  · rintro ⟨d, hd, k, hk⟩
    exact ⟨(g, n, k), List.mem_flatMap.mpr ⟨d, hd, mem_listed.mpr hk⟩, rfl, rfl⟩

/-- The counters of a group are added one by one. -/
theorem merge_group {group : String} {es : List (String × Int)}
    (hes : ∀ e ∈ es, isBlank group = false ∧ isBlank e.1 = false) (c : Counters) :
    ((es.map fun e => (e.1, Value.int e.2)).forM fun e => increment group e.1 e.2).on c =
      (.ok (), addAll (es.map fun e => (group, e.1, e.2)) c) := by
  induction es generalizing c with
  | nil => rfl
  | cons e es ih =>
    obtain ⟨hgroup, hname⟩ := hes e (by simp)
    have hfirst : (increment group e.1 (.int e.2)).on c = (.ok (), c.add group e.1 e.2) :=
      increment_eq_ok_iff.mpr ⟨hgroup, hname, ⟨e.2, rfl⟩, rfl⟩
    exact (Act.on_bind_ok hfirst).trans (ih (fun e' he' => hes e' (List.mem_cons_of_mem _ he')) _)

/-- **Counters with names can always be merged**: their entries are added. -/
theorem merge_eq {d : Counters} (hd : d.Named) (c : Counters) :
    (merge d.toGroups).on c = (.ok (), addAll d.listed c) := by
  have hall : ∀ gs : List (String × Table String Int),
      (∀ g ∈ gs, ∀ e ∈ g.2.entries, isBlank g.1 = false ∧ isBlank e.1 = false) → ∀ c,
      (merge (gs.map fun g => (g.1, g.2.entries.map fun e => (e.1, .int e.2)))).on c =
        (.ok (), addAll (gs.flatMap fun g => g.2.entries.map fun e => (g.1, e.1, e.2)) c) := by
    intro gs
    induction gs with
    | nil => exact fun _ _ => rfl
    | cons g gs ih =>
      intro hgs c
      have hfirst := merge_group (hgs g (by simp)) c
      have hrest := ih (fun g' hg' => hgs g' (List.mem_cons_of_mem _ hg'))
      rw [List.flatMap_cons, addAll_append]
      exact (Act.on_bind_ok hfirst).trans (hrest _)
  refine hall d.groups.entries (fun g hg e he => ?_) c
  refine hd g.1 e.1 e.2 (mem_listed.mp ?_)
  exact List.mem_flatMap.mpr ⟨g, hg, List.mem_map.mpr ⟨e, he, rfl⟩⟩

theorem Within.mem {d : Counters} (hd : Within groups d) {g n : String} {k : Int}
    (h : (d.group g).get? n = some k) : g ∈ groups ∧ isBlank n = false := by
  refine ⟨?_, hd.name g n k h⟩
  obtain ⟨t, ht⟩ := Has.opens ⟨k, h⟩
  exact hd.group g t ht

theorem Within.named (hgroups : ∀ g ∈ groups, isBlank g = false) {d : Counters}
    (hd : Within groups d) : d.Named :=
  fun _ _ _ h => ⟨hgroups _ (hd.mem h).1, (hd.mem h).2⟩

end ScanJobs.Counters
