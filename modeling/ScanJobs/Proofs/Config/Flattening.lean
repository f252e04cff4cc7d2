import ScanJobs.Config.Application
import ScanJobs.Proofs.Fallible
import ScanJobs.Proofs.Table
import ScanJobs.Proofs.Text.Solid

/-! # Nested and dotted mappings

A nested mapping is flattened level by level, each mapping in it by itself. What comes of it is what the
`leaves` of the mapping give, bound one after the other under the keys on the way to them joined by dots
(`flattenInto_eq`): so a mapping in it may be written out under dotted keys (`Inlined.flattenInto_eq`),
and what was flattened stays as it is (`flatten_asMapping`). It fails at the first key that is improper,
wherever this stands. -/

namespace ScanJobs.Config

open Text

/-! ### Keys and leaves -/

/-- The key is a text that is not blank. -/
def isProperKey (k : Value) : Bool :=
  k.text?.any fun s => !isBlank s

/-- The text of a key, less the blanks at its ends. -/
def keyText (k : Value) : String :=
  strip (k.text?.getD "")

mutual

/-- **The keys of a mapping** and of the mappings in it, in the order in which they stand. -/
def keysIn : List (Value × Value) → List Value
  | [] => []
  | (k, v) :: es => k :: (keysAt v ++ keysIn es)

/-- The keys in what stands under a key. -/
def keysAt : Value → List Value
  | .map es => keysIn es
  | _ => []

end

mutual

/-- **The leaves of a mapping**, which are its values that are no mappings, each with the keys on the way
to it, in the order in which they stand. -/
def leaves : List (Value × Value) → List (List Value × Value)
  | [] => []
  | (k, v) :: es => (leavesAt v).map (fun l => (k :: l.1, l.2)) ++ leaves es

/-- The leaves of what stands under a key. -/
def leavesAt : Value → List (List Value × Value)
  | .map es => leaves es
  | v => [([], v)]

end

/-- The key that one comes to from a parent by a way: each key stands below the one before. -/
def keyAlong (parent : String) (way : List Value) : String :=
  way.foldl (fun p k => keyBelow p (keyText k)) parent

/-- **The dotted key of a way** below a parent, if there is one. -/
def dottedKey (parent : String) (way : List Value) : String :=
  keyBelow parent (join '.' (way.map keyText))

/-- The entries that the leaves of a mapping give below a parent. -/
def leafEntries (parent : String) (m : List (Value × Value)) : List (String × Value) :=
  (leaves m).map fun l => (dottedKey parent l.1, l.2)

theorem properKey_of_proper {k : Value} (h : isProperKey k = true) :
    properKey k = .ok (keyText k) := by
  unfold isProperKey at h
  unfold properKey keyText
  cases hk : k.text? with
  | none => simp [hk] at h
  | some s => simp_all

theorem properKey_of_improper {k : Value} (h : isProperKey k = false) :
    properKey k = .error (.config (.improperKey k)) := by
  unfold isProperKey at h
  unfold properKey
  cases hk : k.text? with
  | none => rfl
  | some s => simp_all

theorem solid_keyText {k : Value} (h : isProperKey k = true) : Solid (keyText k) := by
  unfold isProperKey at h
  unfold keyText
  cases hk : k.text? with
  | none => simp [hk] at h
  | some s => exact solid_strip (by simpa [hk] using h)

theorem properKey_text {key : String} (h : Solid key) : properKey (.text key) = .ok key := by
  have hproper : isProperKey (.text key) = true := by simp [isProperKey, Value.text?, h.isBlank_eq]
  rw [properKey_of_proper hproper]
  simp [keyText, Value.text?, h.strip_eq]

theorem solid_keyBelow {parent key : String} (hp : parent.isEmpty = true ∨ Solid parent)
    (hk : Solid key) : Solid (keyBelow parent key) := by
  unfold keyBelow
  split
  · exact hk
  · next he => exact (hp.resolve_left (by simpa using he)).append "." hk

theorem isEmpty_keyBelow (parent : String) {key : String} (h : key.isEmpty = false) :
    (keyBelow parent key).isEmpty = false := by
  unfold keyBelow
  split
  · exact h
  · next he => simp_all

theorem keyBelow_keyBelow (parent : String) {key : String} (h : key.isEmpty = false) (rest : String) :
    keyBelow (keyBelow parent key) rest = keyBelow parent (keyBelow key rest) := by
  have hfirst : keyBelow (keyBelow parent key) rest = keyBelow parent key ++ "." ++ rest := by
    rw [keyBelow, isEmpty_keyBelow parent h]
    rfl
  have hsecond : keyBelow key rest = key ++ "." ++ rest := by
    rw [keyBelow, h]
    rfl
  rw [hfirst, hsecond]
  unfold keyBelow
  split
  · rfl
  · simp only [String.append_assoc]

theorem keyBelow_inj {parent key key' : String} (h : keyBelow parent key = keyBelow parent key') :
    key = key' := by
  unfold keyBelow at h
  split at h
  · exact h
  · exact (String.append_right_inj _).mp h

theorem isEmpty_join {ps : List String} {p : String} (hp : p ∈ ps) (h : p.isEmpty = false) :
    (join '.' ps).isEmpty = false := by
  cases ps with
  | nil => cases hp
  | cons q ps =>
    cases ps with
    | nil =>
      obtain rfl := List.mem_singleton.mp hp
      rwa [join_singleton]
    | cons q' ps =>
      have happ : join '.' ([q] ++ q' :: ps) = join '.' [q] ++ "." ++ join '.' (q' :: ps) :=
        join_append (by simp) (by simp)
      change (join '.' ([q] ++ q' :: ps)).isEmpty = false
      rw [happ, Bool.eq_false_iff]
      intro he
      simp at he

/-- Components below components are the components in a row. -/
theorem keyBelow_join {ps qs : List String} (hp : ps ≠ [] → ∃ p ∈ ps, p.isEmpty = false)
    (hq : qs ≠ []) : keyBelow (join '.' ps) (join '.' qs) = join '.' (ps ++ qs) := by
  by_cases hps : ps = []
  · subst hps
    rfl
  · obtain ⟨p, hmem, hfull⟩ := hp hps
    rw [keyBelow, isEmpty_join hmem hfull, join_append hps hq]
    rfl

/-- **The key along a way is its dotted key.** -/
theorem keyAlong_eq {way : List Value} (hne : way ≠ []) (h : ∀ k ∈ way, isProperKey k = true)
    (parent : String) : keyAlong parent way = dottedKey parent way := by
  induction way generalizing parent with
  | nil => exact absurd rfl hne
  | cons k ks ih =>
    have hfull := (solid_keyText (h k (by simp))).isEmpty_eq
    cases ks with
    | nil => simp [keyAlong, dottedKey, join, joinList]
    | cons k' ks =>
      have hrest := ih (by simp) (fun k'' hk'' => h k'' (List.mem_cons_of_mem _ hk''))
        (keyBelow parent (keyText k))
      have hjoin : join '.' ((k :: k' :: ks).map keyText) =
          keyBelow (keyText k) (join '.' ((k' :: ks).map keyText)) := by
        have hbelow := @keyBelow_join [keyText k] ((k' :: ks).map keyText)
          (fun _ => ⟨_, List.mem_singleton_self _, hfull⟩) (by simp)
        rw [join_singleton] at hbelow
        exact hbelow.symm
      rw [keyAlong, List.foldl_cons, ← keyAlong, hrest, dottedKey, dottedKey, hjoin,
        keyBelow_keyBelow _ hfull]

/-! ### What flattening gives -/

mutual

/-- **Flattening binds the leaves in turn**, each along its way, unless a key is improper: then it fails at
the first such key. -/
theorem flattenInto_eq (t : Table String Value) (parent : String) :
    ∀ es : List (Value × Value), flattenInto t parent es =
      ((keysIn es).find? fun k => !isProperKey k).elim
        (.ok (t.insertAll ((leaves es).map fun l => (keyAlong parent l.1, l.2))))
        fun k => .error (.config (.improperKey k))
  | [] => rfl
  | (k, v) :: es => by
    cases hk : isProperKey k with
    | false => simp [flattenInto, properKey_of_improper hk, keysIn, hk, bind, Except.bind]
    | true =>
      have hhere := flattenAt_eq t (keyBelow parent (keyText k)) v
      have hmap : ((leavesAt v).map fun l => (k :: l.1, l.2)).map (fun l => (keyAlong parent l.1, l.2)) =
          (leavesAt v).map fun l => (keyAlong (keyBelow parent (keyText k)) l.1, l.2) :=
        List.map_map
      rw [flattenInto, properKey_of_proper hk]
      change (flattenAt t (keyBelow parent (keyText k)) v >>= fun t' => flattenInto t' parent es) = _
      rw [hhere, keysIn, List.find?_cons, hk, leaves, List.map_append, hmap, Table.insertAll_append]
      simp only [Bool.not_true, List.find?_append]
      cases hin : (keysAt v).find? fun k => !isProperKey k with
      | some k' => rfl
      | none => exact flattenInto_eq _ parent es

/-- What stands under a key is bound with its leaves. -/
theorem flattenAt_eq (t : Table String Value) (key : String) :
    ∀ v : Value, flattenAt t key v =
      ((keysAt v).find? fun k => !isProperKey k).elim
        (.ok (t.insertAll ((leavesAt v).map fun l => (keyAlong key l.1, l.2))))
        fun k => .error (.config (.improperKey k))
  | .map es => by
    rw [flattenAt, flattenInto_eq Table.empty key es, keysAt, leavesAt]
    cases (keysIn es).find? fun k => !isProperKey k with
    | some k' => rfl
    | none =>
      have hall := Table.insertAll_ofList t ((leaves es).map fun l => (keyAlong key l.1, l.2))
      exact congrArg Except.ok hall
  | .none | .bool _ | .int _ | .float _ | .text _ | .bytes _ | .member _ | .list _ | .tuple _ | .set _
  | .frozenset _ => rfl

end

mutual

/-- A leaf has a way to it, made of keys of the mapping, and is no mapping. -/
theorem way_of_leaves : ∀ {es : List (Value × Value)} {l : List Value × Value}, l ∈ leaves es →
    l.1 ≠ [] ∧ (∀ k ∈ l.1, k ∈ keysIn es) ∧ ∀ fs, l.2 ≠ .map fs
  | [], l, h => by simp [leaves] at h
  | (k, v) :: es, l, h => by
    rw [leaves, List.mem_append] at h
    rcases h with h | h
    · obtain ⟨l, hl, rfl⟩ := List.mem_map.mp h
      obtain ⟨hkeys, hmap⟩ := way_of_leavesAt hl
      refine ⟨by simp, fun k' hk' => ?_, hmap⟩
      rcases List.mem_cons.mp hk' with rfl | hk'
      · simp [keysIn]
      · simp [keysIn, hkeys k' hk']
    · obtain ⟨hne, hkeys, hmap⟩ := way_of_leaves h
      exact ⟨hne, fun k' hk' => by simp [keysIn, hkeys k' hk'], hmap⟩

theorem way_of_leavesAt : ∀ {v : Value} {l : List Value × Value}, l ∈ leavesAt v →
    (∀ k ∈ l.1, k ∈ keysAt v) ∧ ∀ fs, l.2 ≠ .map fs
  | .map es, l, h => by
    rw [leavesAt] at h
    exact (way_of_leaves h).2
  | .none, l, h | .bool _, l, h | .int _, l, h | .float _, l, h | .text _, l, h | .bytes _, l, h
  | .member _, l, h | .list _, l, h | .tuple _, l, h | .set _, l, h | .frozenset _, l, h => by
    simp only [leavesAt, List.mem_singleton] at h
    subst h
    simp

end

/-- Where all keys are proper, the leaves are bound under their dotted keys. -/
theorem flattenInto_of_proper {es : List (Value × Value)} (h : ∀ k ∈ keysIn es, isProperKey k = true)
    (t : Table String Value) (parent : String) :
    flattenInto t parent es = .ok (t.insertAll (leafEntries parent es)) := by
  have hnone : ((keysIn es).find? fun k => !isProperKey k) = none := by
    rw [List.find?_eq_none]
    intro k hk
    simp [h k hk]
  have hentries : (leaves es).map (fun l => (keyAlong parent l.1, l.2)) = leafEntries parent es := by
    refine List.map_congr_left fun l hl => ?_
    obtain ⟨hne, hkeys, -⟩ := way_of_leaves hl
    rw [keyAlong_eq hne fun k hk => h k (hkeys k hk)]
  rw [flattenInto_eq, hnone, hentries]
  rfl

theorem flatten_of_proper {es : List (Value × Value)} (h : ∀ k ∈ keysIn es, isProperKey k = true)
    (parent : String) : flatten es parent = .ok (.ofList (leafEntries parent es)) :=
  flattenInto_of_proper h Table.empty parent

/-- **Flattening fails exactly at the first improper key.** -/
theorem flatten_error_iff {es : List (Value × Value)} {parent : String} {f : Failure} :
    flatten es parent = .error f ↔
      ∃ k, ((keysIn es).find? fun k => !isProperKey k) = some k ∧ f = .config (.improperKey k) := by
  rw [flatten, flattenInto_eq]
  cases (keysIn es).find? fun k => !isProperKey k with
  | none => simp
  | some k => simp [eq_comm]

/-- What was flattened had proper keys. -/
theorem proper_of_flatten {es : List (Value × Value)} {parent : String} {t : Table String Value}
    (h : flatten es parent = .ok t) : ∀ k ∈ keysIn es, isProperKey k = true := by
  cases hf : (keysIn es).find? fun k => !isProperKey k with
  | none => simpa using List.find?_eq_none.mp hf
  | some k => cases (flatten_error_iff.mpr ⟨k, hf, rfl⟩).symm.trans h

/-- What was flattened are the leaves, under their dotted keys. -/
theorem eq_of_flatten {es : List (Value × Value)} {parent : String} {t : Table String Value}
    (h : flatten es parent = .ok t) : t = .ofList (leafEntries parent es) :=
  Except.ok.inj (h.symm.trans (flatten_of_proper (proper_of_flatten h) parent))

theorem solid_keyAlong {way : List Value} (h : ∀ k ∈ way, isProperKey k = true) {parent : String}
    (hp : Solid parent) : Solid (keyAlong parent way) := by
  induction way generalizing parent with
  | nil => exact hp
  | cons k ks ih =>
    exact ih (fun k' hk' => h k' (List.mem_cons_of_mem _ hk'))
      (solid_keyBelow (.inr hp) (solid_keyText (h k (by simp))))

/-- The leaves stand under solid keys, and none is a mapping. -/
theorem solid_leafEntries {es : List (Value × Value)} (h : ∀ k ∈ keysIn es, isProperKey k = true)
    {parent : String} (hp : parent.isEmpty = true ∨ Solid parent) :
    ∀ e ∈ leafEntries parent es, Solid e.1 ∧ ∀ fs, e.2 ≠ .map fs := by
  intro e he
  obtain ⟨⟨way, v⟩, hl, rfl⟩ := List.mem_map.mp he
  obtain ⟨hne, hkeys, hmap⟩ := way_of_leaves hl
  have hproper : ∀ k ∈ way, isProperKey k = true := fun k hk => h k (hkeys k hk)
  refine ⟨?_, hmap⟩
  rw [← keyAlong_eq hne hproper]
  cases way with
  | nil => exact absurd rfl hne
  | cons k ks =>
    exact solid_keyAlong (fun k' hk' => hproper k' (List.mem_cons_of_mem _ hk'))
      (solid_keyBelow hp (solid_keyText (hproper k (by simp))))

/-- So they do in what was flattened. -/
theorem solid_of_flatten {es : List (Value × Value)} {parent : String}
    (hp : parent.isEmpty = true ∨ Solid parent) {t : Table String Value}
    (h : flatten es parent = .ok t) : ∀ e ∈ t.entries, Solid e.1 ∧ ∀ fs, e.2 ≠ .map fs := by
  intro e he
  rw [eq_of_flatten h] at he
  exact solid_leafEntries (proper_of_flatten h) hp e (Table.mem_of_mem_ofList he)

/-! ### Flattening again -/

/-- Entries as a mapping. -/
def asMapping (es : List (String × Value)) : List (Value × Value) :=
  es.map fun e => (.text e.1, e.2)

theorem flattenInto_append (t : Table String Value) (parent : String) (es es' : List (Value × Value)) :
    flattenInto t parent (es ++ es') =
      flattenInto t parent es >>= fun t' => flattenInto t' parent es' := by
  induction es generalizing t with
  | nil => rfl
  | cons e es ih =>
    obtain ⟨k, v⟩ := e
    rw [List.cons_append, flattenInto, flattenInto]
    cases properKey k with
    | error f => rfl
    | ok key =>
      change (flattenAt t (keyBelow parent key) v >>= fun t' => flattenInto t' parent (es ++ es')) =
        (flattenAt t (keyBelow parent key) v >>= fun t' => flattenInto t' parent es) >>= _
      cases flattenAt t (keyBelow parent key) v with
      | error f => rfl
      | ok t' => exact ih t'

theorem flattenAt_of_ne_map {v : Value} (h : ∀ fs, v ≠ .map fs) (t : Table String Value) (key : String) :
    flattenAt t key v = .ok (t.insert key v) := by
  rw [flattenAt]
  exact h

/-- Solid keys stay as they are. -/
theorem flattenInto_asMapping {es : List (String × Value)}
    (h : ∀ e ∈ es, Solid e.1 ∧ ∀ fs, e.2 ≠ .map fs) (t : Table String Value) (parent : String) :
    flattenInto t parent (asMapping es) =
      .ok (t.insertAll (es.map fun e => (keyBelow parent e.1, e.2))) := by
  induction es generalizing t with
  | nil => rfl
  | cons e es ih =>
    obtain ⟨hsolid, hmap⟩ := h e (List.mem_cons_self ..)
    rw [asMapping, List.map_cons, ← asMapping, flattenInto, properKey_text hsolid]
    change (flattenAt t (keyBelow parent e.1) e.2 >>= fun t' => flattenInto t' parent (asMapping es)) = _
    rw [flattenAt_of_ne_map hmap]
    exact ih (fun e' he' => h e' (List.mem_cons_of_mem _ he')) _

/-- Entries without mappings make up a configuration as they stand. -/
theorem flatten_asMapping {es : List (String × Value)}
    (h : ∀ e ∈ es, Solid e.1 ∧ ∀ fs, e.2 ≠ .map fs) : flatten (asMapping es) "" = .ok (.ofList es) := by
  have hkeys : es.map (fun e => (keyBelow "" e.1, e.2)) = es := List.map_id es
  rw [flatten, flattenInto_asMapping h, hkeys]
  rfl

/-- **What was flattened stays as it is.** -/
theorem flatten_flatten {es : List (Value × Value)} {t : Table String Value}
    (h : flatten es "" = .ok t) : flatten (asMapping t.entries) "" = .ok t := by
  rw [flatten_asMapping (solid_of_flatten (.inl rfl) h), Table.ofList_entries]

/-! ### Writing a mapping out under dotted keys -/

/-- **A mapping in the mapping is written out**: in its place stand its own flattened entries, under
dotted keys. -/
inductive Inlined : List (Value × Value) → List (Value × Value) → Prop
  | here (before after : List (Value × Value)) {k : Value} {sub : List (Value × Value)}
      {t : Table String Value} (hk : isProperKey k = true) (ht : flatten sub "" = .ok t) :
      Inlined (before ++ (k, .map sub) :: after)
        (before ++ (asMapping (t.entries.map fun e => (keyBelow (keyText k) e.1, e.2)) ++ after))
  | inside (before after : List (Value × Value)) (k : Value) {sub sub' : List (Value × Value)}
      (h : Inlined sub sub') :
      Inlined (before ++ (k, .map sub) :: after) (before ++ (k, .map sub') :: after)

/-- What a mapping gives below a parent are its own flattened entries, below the parent. -/
theorem entries_leafEntries (parent : String) (es : List (Value × Value)) :
    (Table.ofList (leafEntries parent es)).entries =
      (Table.ofList (leafEntries "" es)).entries.map fun e => (keyBelow parent e.1, e.2) := by
  rw [← Table.entries_ofList_map (f := keyBelow parent) (fun _ _ => keyBelow_inj)]
  rw [leafEntries, leafEntries, List.map_map]
  rfl

theorem flattenInto_written_out {k : Value} {sub : List (Value × Value)} {written : Table String Value}
    (hk : isProperKey k = true) (ht : flatten sub "" = .ok written) (t : Table String Value)
    (parent : String) :
    flattenInto t parent (asMapping (written.entries.map fun e => (keyBelow (keyText k) e.1, e.2))) =
      flattenInto t parent [(k, .map sub)] := by
  have hsolid : ∀ e ∈ written.entries.map (fun e => (keyBelow (keyText k) e.1, e.2)),
      Solid e.1 ∧ ∀ fs, e.2 ≠ .map fs := by
    intro e he
    obtain ⟨⟨rest, v⟩, hmem, rfl⟩ := List.mem_map.mp he
    obtain ⟨hrest, hmap⟩ := solid_of_flatten (.inl rfl) ht _ hmem
    dsimp only at hrest hmap ⊢
    exact ⟨solid_keyBelow (.inr (solid_keyText hk)) hrest, hmap⟩
  have hkeys : (written.entries.map fun e => (keyBelow (keyText k) e.1, e.2)).map
        (fun e => (keyBelow parent e.1, e.2)) =
      written.entries.map fun e => (keyBelow (keyBelow parent (keyText k)) e.1, e.2) := by
    simp [keyBelow_keyBelow parent (solid_keyText hk).isEmpty_eq]
  have hmapping : flattenAt t (keyBelow parent (keyText k)) (.map sub) =
      .ok (t.insertAll (written.entries.map fun e => (keyBelow (keyBelow parent (keyText k)) e.1, e.2))) := by
    rw [flattenAt, flattenInto_of_proper (proper_of_flatten ht), eq_of_flatten ht, ← entries_leafEntries]
    rfl
  rw [flattenInto_asMapping hsolid, hkeys, flattenInto, properKey_of_proper hk]
  change _ = (flattenAt t (keyBelow parent (keyText k)) (.map sub) >>= fun t' => .ok t')
  rw [hmapping]
  rfl

/-- **A mapping and the same with a mapping in it written out give the same.** -/
theorem Inlined.flattenInto_eq {m m' : List (Value × Value)} (h : Inlined m m')
    (t : Table String Value) (parent : String) : flattenInto t parent m' = flattenInto t parent m := by
  induction h generalizing t parent with
  | here before after hk ht =>
    rw [flattenInto_append, flattenInto_append]
    congr 1
    funext t'
    rw [flattenInto_append, flattenInto_written_out hk ht, ← flattenInto_append]
    rfl
  | inside before after k _ ih =>
    rw [flattenInto_append, flattenInto_append]
    congr 1
    funext t'
    simp only [flattenInto, flattenAt, ih]

/-- **Nested and dotted mappings mean the same.** -/
theorem nested_and_dotted_alike (m : List (Value × Value)) (parent : String) :
    ((∃ f, flatten m parent = .error f) ↔ ∃ k ∈ keysIn m, isProperKey k = false) ∧
    (∀ f, flatten m parent = .error f → ∃ k ∈ keysIn m, f = .config (.improperKey k)) ∧
    ((∀ k ∈ keysIn m, isProperKey k = true) →
      flatten m parent = .ok (.ofList (leafEntries parent m))) ∧
    (∀ t, flatten m "" = .ok t → flatten (asMapping t.entries) "" = .ok t) ∧
    ∀ m', Inlined m m' → flatten m' parent = flatten m parent := by
  refine ⟨?_, fun f hf => ?_, fun h => flatten_of_proper h parent, fun t => flatten_flatten,
    fun m' h => h.flattenInto_eq Table.empty parent⟩
  · constructor
    · rintro ⟨f, hf⟩
      obtain ⟨k, hk, -⟩ := flatten_error_iff.mp hf
      exact ⟨k, List.mem_of_find?_eq_some hk, by simpa using List.find?_some hk⟩
    · rintro ⟨k, hk, himproper⟩
      rw [exists_error_iff]
      intro t ht
      rw [proper_of_flatten ht k hk] at himproper
      cases himproper
  · obtain ⟨k, hk, rfl⟩ := flatten_error_iff.mp hf
    exact ⟨k, List.mem_of_find?_eq_some hk, rfl⟩

/-- A nested and a dotted key describe the same configuration. -/
theorem flatten_foo_bar :
    Inlined [(.text "foo", .map [(.text "bar", .int 42)])] [(.text "foo.bar", .int 42)] ∧
      flatten [(.text "foo.bar", .int 42)] "" =
        flatten [(.text "foo", .map [(.text "bar", .int 42)])] "" := by
  have h : Inlined [(.text "foo", .map [(.text "bar", .int 42)])] [(.text "foo.bar", .int 42)] :=
    @Inlined.here [] [] (.text "foo") [(.text "bar", .int 42)] (.ofList [("bar", .int 42)]) rfl rfl
  exact ⟨h, (nested_and_dotted_alike _ "").2.2.2.2 _ h⟩

end ScanJobs.Config
