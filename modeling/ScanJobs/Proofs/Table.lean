import ScanJobs.Table
import Mathlib.Data.List.Perm.Subperm
import Mathlib.Tactic.ByContra

/-! # What tables hold

A table holds an entry exactly if it has its value under its key (`get?_eq_some_iff`). A table made of
entries that give each key one value holds these entries (`get?_ofList_eq_some_iff`); it has as many of
them as it was made of exactly if no key stands twice (`size_ofList_eq_iff`). Entries may be collected in
a table of their own before they are bound in another (`insertAll_ofList`). -/

namespace ScanJobs

namespace Text

theorem pairwise_mergeSort_key {α : Type} (key : α → String) (xs : List α) :
    (xs.mergeSort fun a b => decide (key a ≤ key b)).Pairwise fun a b => key a ≤ key b := by
  have hsorted : (xs.mergeSort fun a b => decide (key a ≤ key b)).Pairwise
      fun a b => decide (key a ≤ key b) = true := by
    apply List.pairwise_mergeSort
    · intro a b c hab hbc
      rw [decide_eq_true_eq] at hab hbc ⊢
      exact String.le_trans hab hbc
    · intro a b
      simpa using String.le_total (key a) (key b)
  exact hsorted.imp of_decide_eq_true

/-- Texts are sorted the same in whatever order they come. -/
theorem sort_eq_of_perm {xs ys : List String} (h : xs.Perm ys) : sort xs = sort ys := by
  refine List.Perm.eq_of_pairwise (fun a b _ _ hab hba => String.le_antisymm hab hba)
    (pairwise_mergeSort_key id xs) (pairwise_mergeSort_key id ys) ?_
  exact (List.mergeSort_perm xs _).trans (h.trans (List.mergeSort_perm ys _).symm)

/-- Of two entries with distinct keys the one that is sorted first has the lesser key. -/
theorem pairwise_lt_sortByKey {α : Type} {es : List (String × α)} (hnodup : (es.map Prod.fst).Nodup) :
    (sortByKey es).Pairwise fun a b => a.1 < b.1 := by
  have hperm : ((sortByKey es).map Prod.fst).Perm (es.map Prod.fst) :=
    (List.mergeSort_perm es _).map Prod.fst
  have hdistinct : (sortByKey es).Pairwise fun a b => a.1 ≠ b.1 :=
    List.pairwise_map.mp (hperm.nodup_iff.mpr hnodup)
  refine List.Pairwise.imp₂ (fun a b hle hne => ?_) (pairwise_mergeSort_key Prod.fst es) hdistinct
  exact String.not_le.mp fun hge => hne (String.le_antisymm hle hge)

end Text

namespace Table

variable {κ α : Type} [DecidableEq κ]

theorem find_eq_some_iff {k : κ} {a : α} {es : List (κ × α)} (h : (es.map Prod.fst).Nodup) :
    find k es = some a ↔ (k, a) ∈ es := by
  induction es with
  | nil => simp [find]
  | cons e es ih =>
    obtain ⟨k', a'⟩ := e
    rw [List.map_cons, List.nodup_cons] at h
    by_cases hk : k' = k
    · subst hk
      have hno : (k', a) ∉ es := fun hm => h.1 (List.mem_map.mpr ⟨(k', a), hm, rfl⟩)
      simp [find, hno, eq_comm]
    · have hne : (k, a) ≠ (k', a') := fun e => hk (congrArg Prod.fst e).symm
      simp [find, hk, hne, ih h.2]

theorem find_eq_none {k : κ} {es : List (κ × α)} (h : k ∉ es.map Prod.fst) : find k es = none := by
  induction es with
  | nil => rfl
  | cons e es ih =>
    rw [List.map_cons, List.mem_cons, not_or] at h
    rw [find, if_neg (Ne.symm h.1), ih h.2]

/-- **A table holds an entry** if it has the value under the key. -/
theorem get?_eq_some_iff {t : Table κ α} {k : κ} {a : α} :
    t.get? k = some a ↔ (k, a) ∈ t.entries :=
  find_eq_some_iff t.nodup

/-- Of two values bound to a key in turn the second stays. -/
theorem insert_insert (t : Table κ α) (k : κ) (a b : α) :
    (t.insert k a).insert k b = t.insert k b := by
  have hput : ∀ es : List (κ × α), put k b (put k a es) = put k b es := by
    intro es
    induction es with
    | nil => simp [put]
    | cons e es ih =>
      by_cases h : e.1 = k <;> simp [put, h, ih]
  unfold insert
  congr 1
  exact hput t.entries

/-- A value that is bound already may be bound again. -/
theorem insert_of_get? {t : Table κ α} {k : κ} {a : α} (h : t.get? k = some a) : t.insert k a = t := by
  have hput : ∀ es : List (κ × α), find k es = some a → put k a es = es := by
    intro es hfind
    induction es with
    | nil => cases hfind
    | cons e es ih =>
      obtain ⟨k', a'⟩ := e
      rw [find] at hfind
      rw [put]
      by_cases hk : k' = k
      · rw [if_pos hk] at hfind ⊢
        rw [Option.some.inj hfind]
      · rw [if_neg hk] at hfind ⊢
        rw [ih hfind]
  obtain ⟨es, hnodup⟩ := t
  rw [insert, mk.injEq]
  exact hput es h

theorem mem_keys_iff {t : Table κ α} {k : κ} : k ∈ t.keys ↔ ∃ a, t.get? k = some a := by
  simp only [keys, List.mem_map, get?_eq_some_iff]
  constructor
  · rintro ⟨⟨k', a⟩, h, rfl⟩
    exact ⟨a, h⟩
  · rintro ⟨a, h⟩
    exact ⟨(k, a), h, rfl⟩

theorem insertAll_append (t : Table κ α) (es es' : List (κ × α)) :
    t.insertAll (es ++ es') = (t.insertAll es).insertAll es' :=
  List.foldl_append

theorem get?_insertAll_of_not_mem {es : List (κ × α)} {k : κ} (h : k ∉ es.map Prod.fst)
    (t : Table κ α) : (t.insertAll es).get? k = t.get? k := by
  induction es generalizing t with
  | nil => rfl
  | cons e es ih =>
    rw [List.map_cons, List.mem_cons, not_or] at h
    have hrest := ih h.2 (t.insert e.1 e.2)
    rw [get?_insert, if_neg (Ne.symm h.1)] at hrest
    exact hrest

theorem get?_insertAll_of_mem {es : List (κ × α)} {k : κ} {a : α} (h : (k, a) ∈ es)
    (huniq : ∀ a', (k, a') ∈ es → a' = a) (t : Table κ α) :
    (t.insertAll es).get? k = some a := by
  induction es generalizing t with
  | nil => cases h
  | cons e es ih =>
    by_cases hmem : k ∈ es.map Prod.fst
    · obtain ⟨⟨k', a'⟩, he, rfl⟩ := List.mem_map.mp hmem
      have ha' : a' = a := huniq a' (List.mem_cons_of_mem _ he)
      exact ih (ha' ▸ he) (fun a'' h'' => huniq a'' (List.mem_cons_of_mem _ h'')) (t.insert e.1 e.2)
    · -- the entry is the last one for its key
      obtain rfl : (k, a) = e := by
        rcases List.mem_cons.mp h with he | he
        · exact he
        · exact absurd (List.mem_map.mpr ⟨(k, a), he, rfl⟩) hmem
      have hrest := get?_insertAll_of_not_mem hmem (t.insert k a)
      rw [get?_insert, if_pos rfl] at hrest
      exact hrest

/-- **A table of entries holds them**, if they give each key one value. -/
theorem get?_ofList_eq_some_iff {es : List (κ × α)}
    (huniq : ∀ k a a', (k, a) ∈ es → (k, a') ∈ es → a' = a) {k : κ} {a : α} :
    (ofList es).get? k = some a ↔ (k, a) ∈ es := by
  constructor
  · intro h
    by_cases hmem : k ∈ es.map Prod.fst
    · obtain ⟨⟨k', a'⟩, he, rfl⟩ := List.mem_map.mp hmem
      have h' := get?_insertAll_of_mem he (fun a'' h'' => huniq _ _ _ he h'') empty
      obtain rfl : a' = a := Option.some.inj (h'.symm.trans h)
      exact he
    · have h' := get?_insertAll_of_not_mem hmem empty
      cases h'.symm.trans h
  · exact fun h => get?_insertAll_of_mem h (fun a' h' => huniq k a a' h h') empty

/-- The value at a key is the one that the entries give it, if they give it no other. -/
theorem get?_ofList_eq {es : List (κ × α)} {k : κ} {x : Option α}
    (h : ∀ a, (k, a) ∈ es ↔ x = some a) : (ofList es).get? k = x := by
  cases x with
  | some a =>
    refine get?_insertAll_of_mem ((h a).mpr rfl) (fun a' ha' => ?_) empty
    exact (Option.some.inj ((h a').mp ha')).symm
  | none =>
    refine get?_insertAll_of_not_mem (fun hmem => ?_) empty
    obtain ⟨⟨_, a⟩, ha, rfl⟩ := List.mem_map.mp hmem
    cases (h a).mp ha

/-! ### How many entries there are -/

theorem entries_insert_of_not_mem {t : Table κ α} {k : κ} (h : k ∉ t.keys) (a : α) :
    (t.insert k a).entries = t.entries ++ [(k, a)] := by
  have hput : ∀ es : List (κ × α), k ∉ es.map Prod.fst → put k a es = es ++ [(k, a)] := by
    intro es
    induction es with
    | nil => exact fun _ => rfl
    | cons e es ih =>
      intro hk
      rw [List.map_cons, List.mem_cons, not_or] at hk
      rw [put, if_neg (Ne.symm hk.1), ih hk.2, List.cons_append]
  exact hput t.entries h

/-- Entries with keys that are all new stand behind the others. -/
theorem entries_insertAll {t : Table κ α} {es : List (κ × α)}
    (h : (t.keys ++ es.map Prod.fst).Nodup) : (t.insertAll es).entries = t.entries ++ es := by
  induction es generalizing t with
  | nil => exact (List.append_nil _).symm
  | cons e es ih =>
    have hk : e.1 ∉ t.keys := fun hmem =>
      (List.nodup_append.mp h).2.2 _ hmem _ (List.mem_cons_self ..) rfl
    have hins := entries_insert_of_not_mem hk e.2
    have hkeys : (t.insert e.1 e.2).keys = t.keys ++ [e.1] := by
      rw [keys, hins, List.map_append, ← keys]
      rfl
    have hrest : (t.insert e.1 e.2).insertAll es = t.insertAll (e :: es) := rfl
    rw [← hrest, ih (by rwa [hkeys, List.append_assoc]), hins, List.append_assoc]
    rfl

/-- The table of distinct entries holds them in their order. -/
theorem entries_ofList {es : List (κ × α)} (h : (es.map Prod.fst).Nodup) :
    (ofList es).entries = es :=
  entries_insertAll h

theorem ofList_entries (t : Table κ α) : ofList t.entries = t := by
  have h := entries_ofList t.nodup
  cases ht : ofList t.entries with
  | mk es hes =>
    rw [ht] at h
    cases t
    cases h
    rfl

/-- **No entry is lost exactly if no key stands twice.** -/
theorem size_ofList_eq_iff {es : List (κ × α)} :
    (ofList es).size = es.length ↔ (es.map Prod.fst).Nodup := by
  constructor
  · intro h
    have hsub : (ofList es).keys ⊆ es.map Prod.fst := by
      intro k hk
      by_contra hno
      obtain ⟨a, ha⟩ := mem_keys_iff.mp hk
      cases (get?_insertAll_of_not_mem hno empty).symm.trans ha
    -- they are distinct and as many as all the keys
    have hperm : (ofList es).keys.Perm (es.map Prod.fst) := by
      refine (List.subperm_of_subset (ofList es).nodup hsub).perm_of_length_le ?_
      calc (es.map Prod.fst).length = es.length := List.length_map ..
        _ = (ofList es).size := h.symm
        _ ≤ (ofList es).keys.length := Nat.le_of_eq (List.length_map ..).symm
    exact hperm.nodup_iff.mp (ofList es).nodup
  · intro h
    rw [size, entries_ofList h]

/-! ### Tables bound in tables -/

/-- A key that has its place already may be bound again before another one is. -/
theorem insert_comm {t : Table κ α} {k k' : κ} (hne : k ≠ k') (hk : k ∈ t.keys) (a b : α) :
    (t.insert k' b).insert k a = (t.insert k a).insert k' b := by
  have hput : ∀ es : List (κ × α), k ∈ es.map Prod.fst →
      put k a (put k' b es) = put k' b (put k a es) := by
    intro es
    induction es with
    | nil => simp
    | cons e es ih =>
      intro hmem
      by_cases hfirst : e.1 = k
      · have hother : e.1 ≠ k' := fun h => hne (hfirst.symm.trans h)
        simp [put, hfirst, hne]
      · have hrest : k ∈ es.map Prod.fst := by simpa [Ne.symm hfirst] using hmem
        by_cases hsecond : e.1 = k'
        · simp [put, hsecond, Ne.symm hne]
        · simp [put, hfirst, hsecond, ih hrest]
  unfold insert
  congr 1
  exact hput t.entries hk

theorem mem_keys_insert {t : Table κ α} {k k' : κ} {a : α} :
    k ∈ (t.insert k' a).keys ↔ k = k' ∨ k ∈ t.keys := by
  rw [mem_keys_iff, mem_keys_iff, get?_insert]
  by_cases h : k' = k
  · simp [h]
  · simp [h, Ne.symm h]

theorem insertAll_insert {t : Table κ α} {k : κ} {es : List (κ × α)} (hk : k ∈ t.keys)
    (hno : k ∉ es.map Prod.fst) (a : α) :
    (t.insertAll es).insert k a = (t.insert k a).insertAll es := by
  induction es generalizing t with
  | nil => rfl
  | cons e es ih =>
    rw [List.map_cons, List.mem_cons, not_or] at hno
    have hrest := ih (t := t.insert e.1 e.2) (mem_keys_insert.mpr (.inr hk)) hno.2
    rw [insert_comm hno.1 hk] at hrest
    exact hrest

/-- Distinct entries of which one is bound again are bound, and then the one again. -/
theorem insertAll_put {es : List (κ × α)} (h : (es.map Prod.fst).Nodup) (k : κ) (a : α)
    (t : Table κ α) : t.insertAll (put k a es) = (t.insertAll es).insert k a := by
  induction es generalizing t with
  | nil => rfl
  | cons e es ih =>
    rw [List.map_cons, List.nodup_cons] at h
    by_cases hfirst : e.1 = k
    · subst hfirst
      have hput : put e.1 a (e :: es) = (e.1, a) :: es := by simp [put]
      calc t.insertAll (put e.1 a (e :: es)) = (t.insert e.1 a).insertAll es := by rw [hput]; rfl
        _ = ((t.insert e.1 e.2).insert e.1 a).insertAll es := by rw [insert_insert]
        _ = ((t.insert e.1 e.2).insertAll es).insert e.1 a :=
          (insertAll_insert (mem_keys_insert.mpr (.inl rfl)) h.1 a).symm
    · have hput : put k a (e :: es) = e :: put k a es := by simp [put, hfirst]
      rw [hput]
      exact ih h.2 (t.insert e.1 e.2)

/-- **Entries may be collected in a table before they are bound in another.** -/
theorem insertAll_ofList (t : Table κ α) (es : List (κ × α)) :
    t.insertAll (ofList es).entries = t.insertAll es := by
  have hall : ∀ u : Table κ α,
      t.insertAll (u.insertAll es).entries = (t.insertAll u.entries).insertAll es := by
    induction es with
    | nil => exact fun _ => rfl
    | cons e es ih =>
      intro u
      have hfirst : t.insertAll (u.insert e.1 e.2).entries = (t.insertAll u.entries).insert e.1 e.2 :=
        insertAll_put u.nodup e.1 e.2 t
      exact (ih (u.insert e.1 e.2)).trans (by rw [hfirst]; rfl)
  exact hall empty

/-- Keys may be renamed before or after the entries are collected. -/
theorem entries_ofList_map {κ' : Type} [DecidableEq κ'] {f : κ → κ'} (hf : ∀ k k', f k = f k' → k = k')
    (es : List (κ × α)) :
    (ofList (es.map fun e => (f e.1, e.2))).entries = (ofList es).entries.map fun e => (f e.1, e.2) := by
  have hput : ∀ (k : κ) (a : α) (es : List (κ × α)),
      put (f k) a (es.map fun e => (f e.1, e.2)) = (put k a es).map fun e => (f e.1, e.2) := by
    intro k a es
    induction es with
    | nil => rfl
    | cons e es ih =>
      by_cases h : e.1 = k
      · simp [put, h]
      · have hne : f e.1 ≠ f k := fun heq => h (hf _ _ heq)
        simp [put, h, hne, ih]
  have hall : ∀ (t : Table κ α) (t' : Table κ' α), (t'.entries = t.entries.map fun e => (f e.1, e.2)) →
      (t'.insertAll (es.map fun e => (f e.1, e.2))).entries =
        (t.insertAll es).entries.map fun e => (f e.1, e.2) := by
    induction es with
    | nil => exact fun _ _ h => h
    | cons e es ih =>
      intro t t' h
      refine ih (t.insert e.1 e.2) (t'.insert (f e.1) e.2) ?_
      change put (f e.1) e.2 t'.entries = _
      rw [h, hput]
      rfl
  exact hall empty empty rfl

end Table

end ScanJobs
