import ScanJobs.Proofs.Counters
import ScanJobs.Proofs.Metrics.Summary

/-! # Metrics one to one

The standard metrics and the job's own are the counters of their groups, one for one. The metrics of
the engine go by full names, and so do all metrics together: group and name with a dot between them.
Two counters may have one full name, since either part may hold dots, and then the later one takes the
place of the earlier one. So every counter has an entry of its own exactly where full names are apart
(`counters_one_to_one_iff_apart`), for which it is enough that no name of a counter holds a dot. -/

namespace ScanJobs.Metrics.Summary

/-! ### Full names -/

/-- A counter under its full name. -/
def named (e : String × String × Int) : String × Int := (e.1 ++ "." ++ e.2.1, e.2.2)

/-- A counter as an entry under its full name. -/
def entry (e : String × String × Int) : Value × Value := (fullName e.1 e.2.1, .int e.2.2)

/-- **No two of the counters have one full name.** -/
def Apart (es : List (String × String × Int)) : Prop := ((es.map named).map Prod.fst).Nodup

theorem part_ofList {es : List (String × String × Int)} (h : Apart es) :
    part (Table.ofList (es.map named)) = es.map entry := by
  rw [part, Table.entries_ofList h, List.map_map]
  rfl

/-- The entries that counters have under their full names are as many as the counters exactly if the
names are apart. -/
theorem length_part_ofList_iff {es : List (String × String × Int)} :
    (part (Table.ofList (es.map named))).length = es.length ↔ Apart es := by
  have h : (part (Table.ofList (es.map named))).length = (Table.ofList (es.map named)).size :=
    List.length_map ..
  rw [h, ← List.length_map named, Table.size_ofList_eq_iff]
  exact Iff.rfl

/-- What follows the last dot tells the name from the group. -/
theorem fullName_inj {g g' n n' : String} (hn : '.' ∉ n.toList) (hn' : '.' ∉ n'.toList)
    (h : g ++ "." ++ n = g' ++ "." ++ n') : g = g' ∧ n = n' := by
  have hlists : g.toList ++ '.' :: n.toList = g'.toList ++ '.' :: n'.toList := by
    have := congrArg String.toList h
    simpa using this
  rcases List.append_eq_append_iff.mp hlists with ⟨as, hg, hrest⟩ | ⟨as, hg, hrest⟩
  · cases as with
    | nil => exact ⟨String.ext (by simpa using hg.symm), String.ext (by simpa using hrest)⟩
    | cons a as =>
      obtain ⟨-, hrest⟩ := List.cons.inj hrest
      exact absurd (by rw [hrest]; simp) hn
  · cases as with
    | nil => exact ⟨String.ext (by simpa using hg), String.ext (by simpa using hrest.symm)⟩
    | cons a as =>
      obtain ⟨-, hrest⟩ := List.cons.inj hrest
      exact absurd (by rw [hrest]; simp) hn'

/-! ### The counters of a part -/

variable (c : Counters)

/-- The counters of a group. -/
def within (group : String) : List (String × String × Int) := c.listed.filter (·.1 = group)

/-- The counters of all groups that are not kept for a job's metrics. -/
def others : List (String × String × Int) :=
  c.listed.filter fun e => e.1 ≠ standardGroup ∧ e.1 ≠ customGroup

/-- All counters, part by part. -/
def byPart : List (String × String × Int) :=
  others c ++ (within c standardGroup ++ within c customGroup)

theorem byPart_perm : (byPart c).Perm c.listed := by
  have hkept := List.filter_append_perm
    (fun e : String × String × Int => e.1 ≠ standardGroup ∧ e.1 ≠ customGroup) c.listed
  have hrest := List.filter_append_perm (fun e : String × String × Int => e.1 = standardGroup)
    (c.listed.filter fun e => !decide (e.1 ≠ standardGroup ∧ e.1 ≠ customGroup))
  refine .trans (.append_left _ ?_) hkept
  refine .trans (.of_eq ?_) hrest
  have hne : standardGroup ≠ customGroup := by decide
  unfold within
  rw [List.filter_filter, List.filter_filter]
  congr 1
  · refine List.filter_congr fun e _ => ?_
    by_cases h : e.1 = standardGroup <;> simp [h]
  · refine List.filter_congr fun e _ => ?_
    by_cases h : e.1 = standardGroup
    · simp [h, hne]
    · simp [h]

/-- The full names of the counters of some groups. -/
theorem map_named_filter (p : String → Bool) :
    (c.listed.filter fun e => p e.1).map named =
      c.groups.entries.flatMap fun g =>
        if p g.1 then g.2.entries.map fun e => (g.1 ++ "." ++ e.1, e.2) else [] := by
  unfold Counters.listed
  rw [List.filter_flatMap, List.map_flatMap]
  congr 1
  funext g
  rw [List.filter_map, List.map_map]
  cases h : p g.1 <;> simp [Function.comp_def, h, named]

/-- The engine's metrics are the counters of the other groups. -/
theorem flatMap_ofEngine : c.groups.entries.flatMap ofEngine = (others c).map named := by
  unfold others
  rw [map_named_filter c fun g => g ≠ standardGroup ∧ g ≠ customGroup]
  congr 1
  funext g
  unfold ofEngine
  by_cases hs : g.1 = standardGroup
  · simp [hs]
  · by_cases hc : g.1 = customGroup <;> simp [hs, hc]

/-- A part that is kept for a group is the table of its counters. -/
theorem flatMap_ofGroup (group : String) :
    c.groups.entries.flatMap (ofGroup group) = (c.group group).entries := by
  have hall : ∀ gs : List (String × Table String Int), (gs.map Prod.fst).Nodup →
      gs.flatMap (ofGroup group) = ((Table.find group gs).getD Table.empty).entries := by
    intro gs
    induction gs with
    | nil => exact fun _ => rfl
    | cons g gs ih =>
      intro h
      rw [List.map_cons, List.nodup_cons] at h
      rw [List.flatMap_cons, ih h.2, ofGroup, Table.find]
      by_cases hg : g.1 = group
      · rw [if_pos hg, if_pos hg, Table.find_eq_none (hg ▸ h.1)]
        exact List.append_nil _
      · rw [if_neg hg, if_neg hg]
        rfl
  exact hall _ c.groups.nodup

/-- The full names of the counters of a group. -/
theorem map_named_within (group : String) :
    (within c group).map named = (c.group group).entries.map fun e => (group ++ "." ++ e.1, e.2) := by
  rw [← flatMap_ofGroup, List.map_flatMap]
  refine (map_named_filter c fun g => g = group).trans ?_
  congr 1
  funext g
  unfold ofGroup
  by_cases h : g.1 = group <;> simp [h]

/-! ### The metrics -/

/-- The metrics of counters, part by part. -/
theorem ofValue_eq : ofValue c.toValue =
    .ok ⟨part (c.group standardGroup), part (c.group customGroup),
      part (Table.ofList ((others c).map named))⟩ := by
  rw [ofValue_toValue, flatMap_ofGroup, flatMap_ofGroup, flatMap_ofEngine, Table.ofList_entries,
    Table.ofList_entries]
  rfl

theorem foldl_putEntry_part (es : List (String × Int)) (t : Table String Int) :
    (es.map fun e => (Value.text e.1, Value.int e.2)).foldl
      (fun kept e => Value.putEntry e.1 e.2 kept) (part t) = part (t.insertAll es) := by
  induction es generalizing t with
  | nil => rfl
  | cons e es ih =>
    rw [List.map_cons, List.foldl_cons, putEntry_part, ih]
    rfl

/-- A group under full names holds the counters of the group. -/
theorem grouped_part (group : String) :
    grouped group (part (c.group group)) =
      ((within c group).map named).map fun e => (Value.text e.1, Value.int e.2) := by
  rw [map_named_within, grouped, part, List.map_map, List.map_map]
  rfl

/-- **All metrics together** are all counters under their full names. -/
theorem all_eq {m : Summary} (h : ofValue c.toValue = .ok m) :
    m.all = part (Table.ofList ((byPart c).map named)) := by
  rw [ofValue_eq] at h
  cases h
  rw [all, grouped_part, grouped_part, ← List.map_append, foldl_putEntry_part, ← List.map_append,
    Table.ofList, ← Table.insertAll_append, ← List.map_append]
  rfl

theorem length_part_group (group : String) :
    (part (c.group group)).length = (within c group).length := by
  have h := congrArg List.length (map_named_within c group)
  rw [List.length_map, List.length_map] at h
  rw [part, List.length_map, h]

/-! ### Names that are apart -/

theorem listed_nodup : c.listed.Nodup := by
  unfold Counters.listed
  refine List.nodup_flatMap.mpr ⟨fun g _ => ?_, ?_⟩
  · exact (g.2.nodup.of_map _).map fun e e' h => (Prod.mk.inj h).2
  · refine (List.pairwise_map.mp c.groups.nodup).imp fun {g g'} hne => ?_
    intro e he he'
    obtain ⟨x, -, rfl⟩ := List.mem_map.mp he
    obtain ⟨x', -, h⟩ := List.mem_map.mp he'
    exact hne (Prod.mk.inj h).1.symm

/-- **Names without dots keep full names apart.** -/
theorem apart_of_forall_not_mem (h : ∀ e ∈ c.listed, '.' ∉ e.2.1.toList) : Apart c.listed := by
  rw [Apart, List.map_map]
  refine (listed_nodup c).map_on fun e he e' he' heq => ?_
  obtain ⟨g, n, k⟩ := e
  obtain ⟨g', n', k'⟩ := e'
  obtain ⟨rfl, rfl⟩ := fullName_inj (h _ he) (h _ he') heq
  have hk := (Counters.mem_listed.mp he).symm.trans (Counters.mem_listed.mp he')
  rw [Option.some.inj hk]

theorem apart_byPart_iff : Apart (byPart c) ↔ Apart c.listed :=
  (((byPart_perm c).map named).map Prod.fst).nodup_iff

/-- The number of entries of all three parts. -/
def size (m : Summary) : Nat := m.standard.length + m.custom.length + m.engine.length

/-- **Every counter has an entry of its own exactly if full names are apart.** The entries kept for a
job are its counters. Those of the engine are as many as its counters if and only if the full names of
these are apart, and then they are the counters; otherwise the last counter of a full name is left. So
it is with all metrics together and the full names of all counters. Names without dots keep full names
apart. -/
theorem counters_one_to_one_iff_apart :
    ∃ m, ofValue c.toValue = .ok m ∧
      m.standard = part (c.group standardGroup) ∧ m.custom = part (c.group customGroup) ∧
      m.engine = part (Table.ofList ((others c).map named)) ∧
      (m.size = c.listed.length ↔ Apart (others c)) ∧
      (Apart (others c) → m.engine = (others c).map entry) ∧
      m.all = part (Table.ofList ((byPart c).map named)) ∧
      (m.all.length = c.listed.length ↔ Apart c.listed) ∧
      (Apart c.listed → m.all.Perm (c.listed.map entry)) ∧
      ((∀ e ∈ c.listed, '.' ∉ e.2.1.toList) → Apart c.listed) := by
  have hlength := (byPart_perm c).length_eq
  refine ⟨_, ofValue_eq c, rfl, rfl, rfl, ?_, part_ofList, all_eq c (ofValue_eq c), ?_, fun h => ?_,
    apart_of_forall_not_mem c⟩
  · rw [byPart, List.length_append, List.length_append] at hlength
    rw [← length_part_ofList_iff, size, length_part_group, length_part_group]
    dsimp only
    omega
  · rw [all_eq c (ofValue_eq c), ← hlength, length_part_ofList_iff, apart_byPart_iff]
  · rw [all_eq c (ofValue_eq c), part_ofList ((apart_byPart_iff c).mpr h)]
    exact (byPart_perm c).map entry

/-- Four counters, of which two and two have one full name. -/
def clashing : Counters :=
  ⟨Table.ofList [("a", Table.ofList [("b.c", 1)]), ("a.b", Table.ofList [("c", 2)]),
    ("scanjob", Table.ofList [("standard.SUCCESS", 3)]),
    (standardGroup, Table.ofList [(success, 4)])]⟩

/-- One is lost among the metrics of the engine, and another one among all metrics. -/
theorem counters_lost_under_shared_names :
    clashing.listed.length = 4 ∧ ∃ m, ofValue clashing.toValue = .ok m ∧
      m.standard = [(.text "SUCCESS", .int 4)] ∧
      m.engine = [(.text "a.b.c", .int 2), (.text "scanjob.standard.SUCCESS", .int 3)] ∧
      m.all = [(.text "a.b.c", .int 2), (.text "scanjob.standard.SUCCESS", .int 4)] ∧
      m.size ≠ clashing.listed.length ∧ m.all.length ≠ clashing.listed.length := by
  obtain ⟨m, hm, hstandard, -, hengine, hsize, -, hall, hlength, -⟩ :=
    counters_one_to_one_iff_apart clashing
  have hothers : ¬ Apart (others clashing) := by
    unfold Apart
    decide
  have hlisted : ¬ Apart clashing.listed := by
    unfold Apart
    decide
  exact ⟨rfl, m, hm, hstandard.trans rfl, hengine.trans rfl, hall.trans rfl,
    fun h => hothers (hsize.mp h), fun h => hlisted (hlength.mp h)⟩

end ScanJobs.Metrics.Summary
