import ScanJobs.Text.Sort

/-! # Tables

A table binds keys to values and lists its entries in the order in which the keys were first bound;
a key bound again keeps its place. No key stands twice. `get?` is what a table means: each operation
has one equation for it.
-/

namespace ScanJobs

/-- Entries with distinct keys. -/
structure Table (κ α : Type) where
  entries : List (κ × α)
  nodup : (entries.map Prod.fst).Nodup
deriving Repr

namespace Table

variable {κ α : Type} [DecidableEq κ]

/-- The table without entries. -/
def empty : Table κ α where
  entries := []
  nodup := List.nodup_nil

instance : Inhabited (Table κ α) := ⟨empty⟩

/-- The value at a key in a list of entries. -/
def find (k : κ) : List (κ × α) → Option α
  | [] => none
  | (k', a) :: es => if k' = k then some a else find k es

/-- Binds a key in a list of entries, at its place or at the end. -/
def put (k : κ) (a : α) : List (κ × α) → List (κ × α)
  | [] => [(k, a)]
  | (k', a') :: es => if k' = k then (k', a) :: es else (k', a') :: put k a es

/-- The value bound to a key. -/
def get? (t : Table κ α) (k : κ) : Option α :=
  find k t.entries

/-- The key is bound. -/
def contains (t : Table κ α) (k : κ) : Bool :=
  (t.get? k).isSome

/-- The keys in the order of the entries. -/
def keys (t : Table κ α) : List κ :=
  t.entries.map Prod.fst

/-- The number of entries. -/
def size (t : Table κ α) : Nat :=
  t.entries.length

theorem map_fst_put (k : κ) (a : α) (es : List (κ × α)) :
    (put k a es).map Prod.fst =
      if k ∈ es.map Prod.fst then es.map Prod.fst else es.map Prod.fst ++ [k] := by
  induction es with
  | nil => rfl
  | cons e es ih =>
    obtain ⟨k', a'⟩ := e
    by_cases h : k' = k
    · simp [put, h]
    · have h' : ¬ k = k' := fun e => h e.symm
      simp only [put, h, if_false, List.map_cons, ih, List.mem_cons, h', false_or]
      split <;> simp

theorem nodup_put {k : κ} {a : α} {es : List (κ × α)} (h : (es.map Prod.fst).Nodup) :
    ((put k a es).map Prod.fst).Nodup := by
  rw [map_fst_put]
  split
  · exact h
  · next hk =>
    refine List.nodup_append.2 ⟨h, List.pairwise_singleton .., ?_⟩
    intro x hx y hy hxy
    rw [List.mem_singleton] at hy
    exact hk (hy ▸ hxy ▸ hx)

/-- Binds a key. -/
def insert (t : Table κ α) (k : κ) (a : α) : Table κ α where
  entries := put k a t.entries
  nodup := nodup_put t.nodup

/-- Unbinds a key. -/
def erase (t : Table κ α) (k : κ) : Table κ α where
  entries := t.entries.filter fun e => e.1 ≠ k
  nodup := t.nodup.sublist ((List.filter_sublist ..).map _)

/-- Binds several keys in turn. -/
def insertAll (t : Table κ α) (es : List (κ × α)) : Table κ α :=
  es.foldl (fun t e => t.insert e.1 e.2) t

/-- The table of these entries; a later one takes the place of an earlier one. -/
def ofList (es : List (κ × α)) : Table κ α :=
  empty.insertAll es

theorem mem_of_mem_put {k : κ} {a : α} {es : List (κ × α)} {e : κ × α} (h : e ∈ put k a es) :
    e = (k, a) ∨ e ∈ es := by
  induction es with
  | nil => exact .inl (List.mem_singleton.mp h)
  | cons e' es ih =>
    obtain ⟨k', a'⟩ := e'
    unfold put at h
    split at h
    · next hk => exact (List.mem_cons.mp h).imp (hk ▸ ·) (List.mem_cons_of_mem _)
    · rcases List.mem_cons.mp h with rfl | h
      · exact .inr (List.mem_cons_self ..)
      · exact (ih h).imp_right (List.mem_cons_of_mem _)

theorem mem_of_mem_insertAll {t : Table κ α} {es : List (κ × α)} {e : κ × α}
    (h : e ∈ (t.insertAll es).entries) : e ∈ t.entries ∨ e ∈ es := by
  induction es generalizing t with
  | nil => exact .inl h
  | cons e' es ih =>
    rcases ih h with h | h
    · rcases mem_of_mem_put h with rfl | h
      · exact .inr (List.mem_cons_self ..)
      · exact .inl h
    · exact .inr (List.mem_cons_of_mem _ h)

/-- A table has none but the entries that it is made of. -/
theorem mem_of_mem_ofList {es : List (κ × α)} {e : κ × α} (h : e ∈ (ofList es).entries) : e ∈ es :=
  (mem_of_mem_insertAll h).resolve_left List.not_mem_nil

/-- Changes the values and keeps the keys. -/
def map {β : Type} (f : α → β) (t : Table κ α) : Table κ β where
  entries := t.entries.map fun e => (e.1, f e.2)
  nodup := by simpa [List.map_map, Function.comp_def] using t.nodup

/-- The entries of a table of texts by key. -/
def sorted (t : Table String α) : List (String × α) :=
  Text.sortByKey t.entries

/-- The keys of a table of texts by code point. -/
def sortedKeys (t : Table String α) : List String :=
  Text.sort t.keys

/-! ## What the operations do to `get?` -/

@[simp] theorem get?_empty (k : κ) : (empty : Table κ α).get? k = none := rfl

theorem find_put (k k' : κ) (a : α) (es : List (κ × α)) :
    find k' (put k a es) = if k = k' then some a else find k' es := by
  induction es with
  | nil => simp [put, find]
  | cons e es ih =>
    obtain ⟨k₁, a₁⟩ := e
    by_cases h : k₁ = k
    · subst h
      by_cases h' : k₁ = k' <;> simp [put, find, h']
    · by_cases h' : k₁ = k'
      · subst h'
        simp [put, find, h, Ne.symm h]
      · simp [put, find, h, h', ih]

theorem get?_insert (t : Table κ α) (k k' : κ) (a : α) :
    (t.insert k a).get? k' = if k = k' then some a else t.get? k' :=
  find_put k k' a t.entries

theorem find_filter_ne (k k' : κ) (es : List (κ × α)) :
    find k' (es.filter fun e => e.1 ≠ k) = if k = k' then none else find k' es := by
  induction es with
  | nil => simp [find]
  | cons e es ih =>
    obtain ⟨k₁, a₁⟩ := e
    by_cases h : k₁ = k
    · subst h
      by_cases h' : k₁ = k' <;> simp_all [find]
    · by_cases h' : k₁ = k'
      · subst h'
        simp [find, h, Ne.symm h]
      · simp_all [find]

theorem get?_erase (t : Table κ α) (k k' : κ) :
    (t.erase k).get? k' = if k = k' then none else t.get? k' :=
  find_filter_ne k k' t.entries

theorem find_map {β : Type} (f : α → β) (k : κ) (es : List (κ × α)) :
    find k (es.map fun e => (e.1, f e.2)) = (find k es).map f := by
  induction es with
  | nil => rfl
  | cons e es ih => by_cases h : e.1 = k <;> simp [find, h, ih]

theorem get?_map {β : Type} (t : Table κ α) (f : α → β) (k : κ) :
    (t.map f).get? k = (t.get? k).map f :=
  find_map f k t.entries

end Table

end ScanJobs
