import ScanJobs.Metrics.Summary
import ScanJobs.Proofs.Fallible
import ScanJobs.Proofs.Table

/-! # The metrics of counters

The metrics of counters are three tables (`ofValue_toValue`): the standard metrics and the job's own
are the counters of their groups (`get_of_ofValue`, `getCustom_of_ofValue`), those of the engine the
counters of all other groups under their full names, unless two of these are the same
(`valueIn_engine_of_ofValue`). -/

namespace ScanJobs.Metrics.Summary

/-! ### Parts that are tables -/

/-- A table of numbers as a part of metrics. -/
def part (t : Table String Int) : List (Value × Value) :=
  t.entries.map fun e => (.text e.1, .int e.2)

/-- The metrics with these parts. -/
def ofTables (standard custom engine : Table String Int) : Summary :=
  ⟨part standard, part custom, part engine⟩

theorem same_text (s t : String) : Value.same (.text s) (.text t) = (s == t) := by
  unfold Value.same
  rfl

theorem putEntry_part (t : Table String Int) (name : String) (n : Int) :
    Value.putEntry (.text name) (.int n) (part t) = part (t.insert name n) := by
  have h : ∀ es : List (String × Int),
      Value.putEntry (.text name) (.int n) (es.map fun e => (.text e.1, .int e.2)) =
        (Table.put name n es).map fun e => (.text e.1, .int e.2) := by
    intro es
    induction es with
    | nil => rfl
    | cons e es ih =>
      rw [List.map_cons, Value.putEntry, same_text, ih, Table.put]
      by_cases he : e.1 = name <;> simp [he]
  exact h t.entries

theorem valueAt?_part (t : Table String Int) (name : String) :
    Value.valueAt? (.text name) (part t) = (t.get? name).map .int := by
  have h : ∀ es : List (String × Int),
      Value.valueAt? (.text name) (es.map fun e => (.text e.1, .int e.2)) =
        (Table.find name es).map .int := by
    intro es
    induction es with
    | nil => rfl
    | cons e es ih =>
      rw [List.map_cons, Value.valueAt?, same_text, ih, Table.find]
      by_cases he : e.1 = name <;> simp [he]
  exact h t.entries

theorem valueIn_part (t : Table String Int) (name : String) :
    valueIn (part t) (.text name) = .ok ((t.get? name).getD 0) := by
  have h : valueIn (part t) (.text name) =
      Counters.integerOf ((Value.valueAt? (.text name) (part t)).getD (.int 0)) := rfl
  rw [h, valueAt?_part]
  cases t.get? name <;> rfl

/-! ### Reading counters -/

/-- The counters of a group, if it is this one. -/
def ofGroup (group : String) (g : String × Table String Int) : List (String × Int) :=
  if g.1 = group then g.2.entries else []

/-- The counters of a group of the engine by full name. -/
def ofEngine (g : String × Table String Int) : List (String × Int) :=
  if g.1 = standardGroup ∨ g.1 = customGroup then []
  else g.2.entries.map fun e => (g.1 ++ "." ++ e.1, e.2)

theorem addCounter_ofTables (s c e : Table String Int) (group name : String) (n : Int) :
    (ofTables s c e).addCounter (.text group) (.text name) n =
      if group = standardGroup then ofTables (s.insert name n) c e
      else if group = customGroup then ofTables s (c.insert name n) e
      else ofTables s c (e.insert (group ++ "." ++ name) n) := by
  have hname : fullName (Value.plain (.text group)) (Value.plain (.text name)) =
      .text (group ++ "." ++ name) := rfl
  unfold addCounter
  rw [same_text, same_text, hname]
  simp only [beq_iff_eq, ofTables, putEntry_part]

theorem foldl_addCounter (group : String) (es : List (String × Int)) (s c e : Table String Int) :
    es.foldl (fun m x => m.addCounter (.text group) (.text x.1) x.2) (ofTables s c e) =
      if group = standardGroup then ofTables (s.insertAll es) c e
      else if group = customGroup then ofTables s (c.insertAll es) e
      else ofTables s c (e.insertAll (es.map fun x => (group ++ "." ++ x.1, x.2))) := by
  induction es generalizing s c e with
  | nil => simp [Table.insertAll]
  | cons x es ih =>
    rw [List.foldl_cons, addCounter_ofTables]
    split
    · next h => rw [ih, if_pos h]; rfl
    · next h =>
      split
      · next h' => rw [ih, if_neg h, if_pos h']; rfl
      · next h' => rw [ih, if_neg h, if_neg h']; rfl

/-- A group adds to one of the parts. -/
theorem addGroup_ofTables (g : String × Table String Int) (s c e : Table String Int) :
    (ofTables s c e).addGroup (.text g.1) (part g.2) =
      .ok (ofTables (s.insertAll (ofGroup standardGroup g)) (c.insertAll (ofGroup customGroup g))
        (e.insertAll (ofEngine g))) := by
  have hfold : ∀ (es : List (String × Int)) (m : Summary),
      m.addGroup (.text g.1) (es.map fun x => (.text x.1, .int x.2)) =
        .ok (es.foldl (fun m x => m.addCounter (.text g.1) (.text x.1) x.2) m) := by
    intro es
    induction es with
    | nil => exact fun m => rfl
    | cons x es ih => exact fun m => ih (m.addCounter (.text g.1) (.text x.1) x.2)
  rw [part, hfold, foldl_addCounter]
  unfold ofGroup ofEngine
  by_cases hs : g.1 = standardGroup
  · have hne : ¬ standardGroup = customGroup := by decide
    simp [hs, hne, Table.insertAll]
  · by_cases hc : g.1 = customGroup
    · have hne : ¬ customGroup = standardGroup := by decide
      simp [hc, hne, Table.insertAll]
    · simp [hs, hc, Table.insertAll]

/-- **The metrics of counters** are three tables. -/
theorem ofValue_toValue (counters : Counters) :
    ofValue counters.toValue =
      .ok (ofTables (Table.ofList (counters.groups.entries.flatMap (ofGroup standardGroup)))
        (Table.ofList (counters.groups.entries.flatMap (ofGroup customGroup)))
        (Table.ofList (counters.groups.entries.flatMap ofEngine))) := by
  have hall : ∀ (gs : List (String × Table String Int)) (s c e : Table String Int),
      (gs.map fun g => (Value.text g.1, Value.map (part g.2))).foldlM
        (fun m g => do m.addGroup g.1 (← g.2.entries)) (ofTables s c e) =
      (.ok (ofTables (s.insertAll (gs.flatMap (ofGroup standardGroup)))
        (c.insertAll (gs.flatMap (ofGroup customGroup))) (e.insertAll (gs.flatMap ofEngine))) :
          Except Failure Summary) := by
    intro gs
    induction gs with
    | nil => exact fun s c e => rfl
    | cons g gs ih =>
      intro s c e
      rw [List.map_cons, List.foldlM_cons]
      refine bind_eq_ok_iff.mpr ⟨_, addGroup_ofTables g s c e, ?_⟩
      rw [ih]
      simp only [List.flatMap_cons, Table.insertAll, List.foldl_append]
  exact hall counters.groups.entries Table.empty Table.empty Table.empty

/-! ### What they are -/

variable {counters : Counters} {m : Summary}

/-- The counters of a group, as they are found in it. -/
theorem get?_ofGroup (group name : String) :
    (Table.ofList (counters.groups.entries.flatMap (ofGroup group))).get? name =
      (counters.group group).get? name := by
  refine Table.get?_ofList_eq fun k => ?_
  rw [List.mem_flatMap, Counters.group]
  constructor
  · rintro ⟨g, hg, hk⟩
    unfold ofGroup at hk
    split at hk
    · next h =>
      subst h
      rw [Table.get?_eq_some_iff.mpr hg]
      exact Table.get?_eq_some_iff.mpr hk
    · cases hk
  · intro hk
    cases hg : counters.groups.get? group with
    | none => rw [hg] at hk; cases hk
    | some t =>
      rw [hg] at hk
      refine ⟨(group, t), Table.get?_eq_some_iff.mp hg, ?_⟩
      rw [ofGroup, if_pos rfl]
      exact Table.get?_eq_some_iff.mp hk

theorem get_of_ofValue (h : ofValue counters.toValue = .ok m) {name : String}
    (hname : isStandard name = true) :
    m.get (.text name) = .ok (Metrics.get counters name) := by
  rw [ofValue_toValue] at h
  cases h
  have hstandard : standardName (.text name) = .ok name := by
    rw [standardName, Value.text?, Option.filter_some, hname]
    rfl
  rw [get, hstandard]
  exact (valueIn_part _ name).trans (by rw [get?_ofGroup]; rfl)

theorem getCustom_of_ofValue (h : ofValue counters.toValue = .ok m) (name : String) :
    m.getCustom (.text name) = .ok (Metrics.getCustom counters name) := by
  rw [ofValue_toValue] at h
  cases h
  exact (valueIn_part _ name).trans (by rw [get?_ofGroup]; rfl)

/-- The counters of the engine, as they are found under their full names. -/
theorem get?_ofEngine {group name : String} (hgroup : group ≠ standardGroup ∧ group ≠ customGroup)
    (hone : ∀ g n k, (counters.group g).get? n = some k → g ≠ standardGroup → g ≠ customGroup →
      g ++ "." ++ n = group ++ "." ++ name → g = group ∧ n = name) :
    (Table.ofList (counters.groups.entries.flatMap ofEngine)).get? (group ++ "." ++ name) =
      (counters.group group).get? name := by
  refine Table.get?_ofList_eq fun k => ?_
  rw [List.mem_flatMap]
  constructor
  · rintro ⟨⟨g, t⟩, hg, hk⟩
    unfold ofEngine at hk
    split at hk
    · cases hk
    · next hne =>
      obtain ⟨⟨n, k'⟩, hn, he⟩ := List.mem_map.mp hk
      obtain ⟨hfull, rfl⟩ := Prod.mk.inj he
      have hbound : (counters.group g).get? n = some k' := by
        rw [Counters.group, Table.get?_eq_some_iff.mpr hg]
        exact Table.get?_eq_some_iff.mpr hn
      obtain ⟨rfl, rfl⟩ := hone g n k' hbound (fun h => hne (.inl h)) (fun h => hne (.inr h)) hfull
      exact hbound
  · intro hk
    rw [Counters.group] at hk
    cases hg : counters.groups.get? group with
    | none => rw [hg] at hk; cases hk
    | some t =>
      rw [hg] at hk
      refine ⟨(group, t), Table.get?_eq_some_iff.mp hg, ?_⟩
      rw [ofEngine, if_neg (not_or.mpr hgroup)]
      exact List.mem_map.mpr ⟨(name, k), Table.get?_eq_some_iff.mp hk, rfl⟩

/-- **A metric of the engine is the counter of its full name**, if that is the name of no other. -/
theorem valueIn_engine_of_ofValue (h : ofValue counters.toValue = .ok m) {group name : String}
    (hgroup : group ≠ standardGroup ∧ group ≠ customGroup)
    (hone : ∀ g n k, (counters.group g).get? n = some k → g ≠ standardGroup → g ≠ customGroup →
      g ++ "." ++ n = group ++ "." ++ name → g = group ∧ n = name) :
    valueIn m.engine (.text (group ++ "." ++ name)) = .ok (counters.value group name) := by
  rw [ofValue_toValue] at h
  cases h
  exact (valueIn_part _ _).trans (by rw [get?_ofEngine hgroup hone]; rfl)

end ScanJobs.Metrics.Summary
