import ScanJobs.Proofs.Value.Parts

/-! # Proper values

The items of a set may be such, and no two of them are the same; no more are the keys of a map. A value is
proper if this holds of it and of all its parts (`Proper`). On proper values equality is symmetric and
transitive (`Proper.same_symm`, `Proper.same_trans`): of as many items, no two of which are the same, each
has its own in the other set. So the items of a set of proper values are apart in whatever order they stand
(`apart_setItems`), and so are the keys of a map (`apart_mapEntries`). -/

namespace ScanJobs.Value

/-- **No two of the values are the same**, from either side. -/
def Apart (xs : List Value) : Prop :=
  xs.Pairwise fun a b => same a b = false ∧ same b a = false

theorem Apart.perm {xs ys : List Value} (h : Apart xs) (hp : xs.Perm ys) : Apart ys :=
  hp.pairwise h fun hab => ⟨hab.2, hab.1⟩

/-- **A value is as values are made**: its sets hold hashable items that are apart, and the keys of its
maps are apart. -/
inductive Proper : Value → Prop
  | leaf {v : Value} (h : v.isLeaf = true) : Proper v
  | container {s : Shape} {xs : List Value} (items : ∀ x ∈ xs, Proper x)
      (hashable : s.isSet = true → ∀ x ∈ xs, x.isHashable = true)
      (apart : s.isSet = true → Apart xs) : Proper (s.container xs)
  | map {es : List (Value × Value)} (keys : ∀ e ∈ es, Proper e.1) (values : ∀ e ∈ es, Proper e.2)
      (apart : Apart (es.map Prod.fst)) : Proper (.map es)

namespace Proper

variable {a b c : Value} {s : Shape} {xs : List Value} {es : List (Value × Value)}

theorem of_container (h : Proper (s.container xs)) :
    (∀ x ∈ xs, Proper x) ∧ (s.isSet = true → (∀ x ∈ xs, x.isHashable = true) ∧ Apart xs) := by
  generalize ha : s.container xs = a at h
  cases h with
  | leaf h =>
    rw [← ha, Shape.isLeaf_container] at h
    cases h
  | container items hashable apart =>
    obtain ⟨rfl, rfl⟩ := Shape.container_inj.mp ha
    exact ⟨items, fun hs => ⟨hashable hs, apart hs⟩⟩
  | map keys values apart => exact (Shape.container_ne_map _ _ _ ha).elim

theorem of_map (h : Proper (.map es)) :
    (∀ e ∈ es, Proper e.1) ∧ (∀ e ∈ es, Proper e.2) ∧ Apart (es.map Prod.fst) := by
  generalize ha : Value.map es = a at h
  cases h with
  | leaf h =>
    rw [← ha] at h
    cases h
  | container items hashable apart => exact (Shape.container_ne_map _ _ _ ha.symm).elim
  | map keys values apart =>
    cases ha
    exact ⟨keys, values, apart⟩

/-- Other containers than sets may hold the same item twice. -/
theorem of_ordered (hs : s.isSet = false) (h : ∀ x ∈ xs, Proper x) : Proper (s.container xs) := by
  have hnot : ¬ s.isSet = true := Bool.eq_false_iff.mp hs
  exact .container h (fun hset => absurd hset hnot) fun hset => absurd hset hnot

theorem of_items? (h : Proper a) (hxs : a.items? = some xs) : ∀ x ∈ xs, Proper x := by
  obtain ⟨s, rfl⟩ := items?_eq_some_iff.mp hxs
  exact h.of_container.1

end Proper

/-! ### Equality of leaves -/

/-- Leaves are the same as numbers or as texts, or they are one. -/
theorem sameLeaf_cases {a b : Value} (h : sameLeaf a b = true) :
    (∃ x y, a.number? = some x ∧ b.number? = some y ∧ x.eq y = true) ∨
      (∃ s, a.text? = some s ∧ b.text? = some s) ∨ a = b := by
  unfold sameLeaf at h
  split at h
  · next x y hx hy => exact .inl ⟨x, y, hx, hy, h⟩
  · split at h
    · next s t hs ht =>
      rw [eq_of_beq h] at hs
      exact .inr (.inl ⟨t, hs, ht⟩)
    · refine .inr (.inr ?_)
      unfold sameOther at h
      split at h
      · rfl
      · rw [eq_of_beq h]
      · rw [eq_of_beq h]
      · cases h

theorem sameLeaf_trans {a b c : Value} (h : sameLeaf a b = true) (h' : sameLeaf b c = true) :
    sameLeaf a c = true := by
  rcases sameLeaf_cases h with ⟨x, y, hx, hy, hxy⟩ | ⟨s, hs, hs'⟩ | rfl
  · rcases sameLeaf_cases h' with ⟨y', z, hy', hz, hyz⟩ | ⟨t, ht, -⟩ | rfl
    · cases hy.symm.trans hy'
      unfold sameLeaf
      rw [hx, hz]
      exact Number.eq_trans hxy hyz
    · cases (text?_of_number? hy).symm.trans ht
    · exact h
  · rcases sameLeaf_cases h' with ⟨y, z, hy, -⟩ | ⟨t, ht, ht'⟩ | rfl
    · cases (text?_of_number? hy).symm.trans hs'
    · cases hs'.symm.trans ht
      have hnumber : a.number? = .none := by
        cases hn : a.number? with
        | none => rfl
        | some n => cases (text?_of_number? hn).symm.trans hs
      unfold sameLeaf
      rw [hnumber, hs, ht']
      exact beq_self_eq_true s
    · exact h
  · exact h'

/-! ### Equality of proper values -/

/-- What equality is on the proper values that are compared with `a`. -/
structure Lawful (a : Value) : Prop where
  symm : ∀ {b}, Proper b → same a b = true → same b a = true
  trans : ∀ {b c}, Proper b → Proper c → same a b = true → same b c = true → same a c = true

theorem lawful_leaf {a : Value} (ha : a.isLeaf = true) : Lawful a where
  symm {b} _ h := by
    cases hb : b.isLeaf with
    | true =>
      rw [same_leaf hb, sameLeaf_comm, ← same_leaf ha]
      exact h
    | false =>
      rw [same_leaf_left ha hb] at h
      cases h
  trans {b c} _ _ h h' := by
    cases hb : b.isLeaf with
    | true =>
      rw [same_leaf ha] at h ⊢
      rw [same_leaf hb] at h'
      exact sameLeaf_trans h h'
    | false =>
      rw [same_leaf_left ha hb] at h
      cases h

/-- What is the same as a container is a container. -/
theorem exists_container_of_same {s : Shape} {xs : List Value} {b : Value}
    (h : same (s.container xs) b = true) : ∃ (t : Shape) (ys : List Value), b = t.container ys := by
  rcases parts_cases b with hb | ⟨t, ys, rfl⟩ | ⟨es, rfl⟩
  · rw [same_leaf_right (s.isLeaf_container xs) hb] at h
    cases h
  · exact ⟨t, ys, rfl⟩
  · rw [(same_container_map ..).1] at h
    cases h

theorem exists_map_of_same {es : List (Value × Value)} {b : Value} (h : same (.map es) b = true) :
    ∃ fs, b = .map fs := by
  rcases parts_cases b with hb | ⟨t, ys, rfl⟩ | ⟨fs, rfl⟩
  · rw [same_leaf_right rfl hb] at h
    cases h
  · rw [(same_container_map ..).2] at h
    cases h
  · exact ⟨fs, rfl⟩

/-- No two values that are apart are the same as one and the same other. -/
theorem Apart.injective {xs ys : List Value} (h : Apart xs) (hxs : ∀ x ∈ xs, Lawful x)
    (hproper : ∀ x ∈ xs, Proper x) (hys : ∀ y ∈ ys, Proper y) :
    xs.Pairwise fun a b => ∀ y ∈ ys, same a y = true → ¬ same b y = true := by
  refine h.imp_of_mem fun {a b} ha hb hab y hy hay hby => ?_
  have hyb := (hxs b hb).symm (hys y hy) hby
  have hsame := (hxs a ha).trans (hys y hy) (hproper b hb) hay hyb
  rw [hab.1] at hsame
  cases hsame

theorem lawful_container {s : Shape} {xs : List Value} (h : Proper (s.container xs))
    (ih : ∀ x ∈ xs, Lawful x) : Lawful (s.container xs) where
  symm {b} hb hab := by
    obtain ⟨hitems, hset⟩ := h.of_container
    obtain ⟨t, ys, rfl⟩ := exists_container_of_same hab
    obtain ⟨hitems', hset'⟩ := hb.of_container
    rw [same_container_iff] at hab ⊢
    rcases hab with ⟨hs, ht, hlength, hin⟩ | ⟨hs, rfl, hall⟩
    · refine .inl ⟨ht, hs, hlength.symm, fun y hy => ?_⟩
      obtain ⟨x, hx, hxy⟩ := exists_left_of_injective hlength hin
        ((hset hs).2.injective ih hitems hitems') y hy
      exact ⟨x, hx, (ih x hx).symm (hitems' y hy) hxy⟩
    · refine .inr ⟨hs, rfl, (forall₂_imp_of_mem hall fun x hx y hy hxy => ?_).flip⟩
      exact (ih x hx).symm (hitems' y hy) hxy
  trans {b c} hb hc hab hbc := by
    obtain ⟨t, ys, rfl⟩ := exists_container_of_same hab
    obtain ⟨u, zs, rfl⟩ := exists_container_of_same hbc
    have hys := hb.of_container.1
    have hzs := hc.of_container.1
    rw [same_container_iff] at hab hbc ⊢
    rcases hab with ⟨hs, ht, hlength, hin⟩ | ⟨hs, rfl, hall⟩
    · rcases hbc with ⟨-, hu, hlength', hin'⟩ | ⟨ht', -⟩
      · refine .inl ⟨hs, hu, hlength.trans hlength', fun x hx => ?_⟩
        obtain ⟨y, hy, hxy⟩ := hin x hx
        obtain ⟨z, hz, hyz⟩ := hin' y hy
        exact ⟨z, hz, (ih x hx).trans (hys y hy) (hzs z hz) hxy hyz⟩
      · cases ht.symm.trans ht'
    · rcases hbc with ⟨hs', -⟩ | ⟨-, rfl, hall'⟩
      · cases hs.symm.trans hs'
      · refine .inr ⟨hs, rfl, forall₂_trans_of_mem hall hall' fun x hx y hy z hz => ?_⟩
        exact (ih x hx).trans (hys y hy) (hzs z hz)

theorem lawful_map {es : List (Value × Value)} (h : Proper (.map es)) (hkeys : ∀ e ∈ es, Lawful e.1)
    (hvalues : ∀ e ∈ es, Lawful e.2) : Lawful (.map es) where
  symm {b} hb hab := by
    obtain ⟨hkeysProper, -, hapart⟩ := h.of_map
    obtain ⟨fs, rfl⟩ := exists_map_of_same hab
    obtain ⟨hkeysProper', hvaluesProper', -⟩ := hb.of_map
    rw [same_map_iff] at hab ⊢
    obtain ⟨hlength, hin⟩ := hab
    -- the keys are apart already
    have hinjective : es.Pairwise fun e e' => ∀ f ∈ fs,
        same e.1 f.1 = true ∧ same e.2 f.2 = true →
          ¬ (same e'.1 f.1 = true ∧ same e'.2 f.2 = true) := by
      have hproper' : ∀ k ∈ fs.map Prod.fst, Proper k := List.forall_mem_map.mpr hkeysProper'
      have hinj := hapart.injective (List.forall_mem_map.mpr hkeys)
        (List.forall_mem_map.mpr hkeysProper) hproper'
      rw [List.pairwise_map] at hinj
      exact hinj.imp fun hee f hf he he' => hee f.1 (List.mem_map_of_mem hf) he.1 he'.1
    refine ⟨hlength.symm, fun f hf => ?_⟩
    obtain ⟨e, he, hkey, hvalue⟩ := exists_left_of_injective hlength hin hinjective f hf
    exact ⟨e, he, (hkeys e he).symm (hkeysProper' f hf) hkey,
      (hvalues e he).symm (hvaluesProper' f hf) hvalue⟩
  trans {b c} hb hc hab hbc := by
    obtain ⟨fs, rfl⟩ := exists_map_of_same hab
    obtain ⟨gs, rfl⟩ := exists_map_of_same hbc
    obtain ⟨hfkeys, hfvalues, -⟩ := hb.of_map
    obtain ⟨hgkeys, hgvalues, -⟩ := hc.of_map
    rw [same_map_iff] at hab hbc ⊢
    obtain ⟨hlength, hin⟩ := hab
    obtain ⟨hlength', hin'⟩ := hbc
    refine ⟨hlength.trans hlength', fun e he => ?_⟩
    obtain ⟨f, hf, hkey, hvalue⟩ := hin e he
    obtain ⟨g, hg, hkey', hvalue'⟩ := hin' f hf
    exact ⟨g, hg, (hkeys e he).trans (hfkeys f hf) (hgkeys g hg) hkey hkey',
      (hvalues e he).trans (hfvalues f hf) (hgvalues g hg) hvalue hvalue'⟩

theorem Proper.lawful {a : Value} (h : Proper a) : Lawful a := by
  induction h with
  | leaf h => exact lawful_leaf h
  | container items hashable apart ih => exact lawful_container (.container items hashable apart) ih
  | map keys values apart hkeys hvalues => exact lawful_map (.map keys values apart) hkeys hvalues

/-- **Equality of proper values is symmetric.** -/
theorem Proper.same_comm {a b : Value} (ha : Proper a) (hb : Proper b) : same a b = same b a :=
  Bool.eq_iff_iff.mpr ⟨ha.lawful.symm hb, hb.lawful.symm ha⟩

/-! ### Sets and maps that are made -/

theorem Apart.of_distinct {xs : List Value} (hproper : ∀ x ∈ xs, Proper x) (h : Distinct xs) :
    Apart xs := by
  refine h.imp_of_mem fun {a b} ha hb hba => ⟨?_, hba⟩
  rw [(hproper a ha).same_comm (hproper b hb)]
  exact hba

/-- **The items of a set are apart.** -/
theorem apart_setItems {xs : List Value} (h : ∀ x ∈ xs, Proper x) : Apart (setItems xs) := by
  obtain ⟨hdistinct, hmem⟩ := distinct_spec xs
  have hapart : Apart (distinct xs) := .of_distinct (fun x hx => h x (hmem x hx)) hdistinct
  exact hapart.perm (setItems_perm xs).symm

/-- Items that are apart make up a set of their own, but for the order. -/
theorem setItems_perm_of_apart {xs : List Value} (h : Apart xs) : (setItems xs).Perm xs := by
  have hdistinct : Distinct xs := h.imp fun hab => hab.2
  have hperm := setItems_perm xs
  rwa [distinct_eq_self hdistinct] at hperm

/-- An entry is put to others in the place of its key, or at the end. -/
theorem mem_putEntry {k v : Value} {es : List (Value × Value)} {e : Value × Value}
    (h : e ∈ putEntry k v es) :
    (e.1 = k ∨ ∃ f ∈ es, f.1 = e.1) ∧ (e.2 = v ∨ ∃ f ∈ es, f.2 = e.2) := by
  induction es with
  | nil =>
    obtain rfl := List.mem_singleton.mp h
    exact ⟨.inl rfl, .inl rfl⟩
  | cons f es ih =>
    obtain ⟨k', v'⟩ := f
    rw [putEntry] at h
    split at h
    · rcases List.mem_cons.mp h with rfl | h
      · exact ⟨.inr ⟨_, List.mem_cons_self .., rfl⟩, .inl rfl⟩
      · exact ⟨.inr ⟨e, List.mem_cons_of_mem _ h, rfl⟩, .inr ⟨e, List.mem_cons_of_mem _ h, rfl⟩⟩
    · rcases List.mem_cons.mp h with rfl | h
      · exact ⟨.inr ⟨_, List.mem_cons_self .., rfl⟩, .inr ⟨_, List.mem_cons_self .., rfl⟩⟩
      · refine (ih h).imp (.imp_right ?_) (.imp_right ?_)
        · exact fun ⟨f, hf, hkey⟩ => ⟨f, List.mem_cons_of_mem _ hf, hkey⟩
        · exact fun ⟨f, hf, hvalue⟩ => ⟨f, List.mem_cons_of_mem _ hf, hvalue⟩

/-- An entry with a new key is the last. -/
theorem putEntry_of_new {k : Value} (v : Value) {es : List (Value × Value)}
    (h : ∀ e ∈ es, same e.1 k = false) : putEntry k v es = es ++ [(k, v)] := by
  induction es with
  | nil => rfl
  | cons f es ih =>
    obtain ⟨hfirst, hrest⟩ := List.forall_mem_cons.mp h
    rw [putEntry, if_neg (Bool.eq_false_iff.mp hfirst), ih hrest, List.cons_append]

/-- A key that is there keeps its place. -/
theorem keys_putEntry (k v : Value) (es : List (Value × Value)) :
    (putEntry k v es).map Prod.fst = es.map Prod.fst ∨ ∀ e ∈ es, same e.1 k = false := by
  induction es with
  | nil => exact .inr nofun
  | cons f es ih =>
    rw [putEntry]
    split
    · exact .inl rfl
    · next hkey =>
      rcases ih with hkeys | hnone
      · exact .inl (by rw [List.map_cons, List.map_cons, hkeys])
      · exact .inr (List.forall_mem_cons.mpr ⟨Bool.eq_false_iff.mpr hkey, hnone⟩)

/-- Each key and each value of a map is one of those that it is made of. -/
theorem mem_mapEntries {es : List (Value × Value)} {e : Value × Value} (h : e ∈ mapEntries es) :
    (∃ f ∈ es, f.1 = e.1) ∧ ∃ f ∈ es, f.2 = e.2 := by
  have hfold : ∀ (es kept : List (Value × Value)),
      e ∈ es.foldl (fun kept e => putEntry e.1 e.2 kept) kept →
        ((∃ f ∈ kept, f.1 = e.1) ∨ ∃ f ∈ es, f.1 = e.1) ∧
          ((∃ f ∈ kept, f.2 = e.2) ∨ ∃ f ∈ es, f.2 = e.2) := by
    intro es
    induction es with
    | nil => exact fun kept h => ⟨.inl ⟨e, h, rfl⟩, .inl ⟨e, h, rfl⟩⟩
    | cons f es ih =>
      intro kept h
      obtain ⟨hkey, hvalue⟩ := ih _ h
      refine ⟨?_, ?_⟩
      · rcases hkey with ⟨g, hg, hge⟩ | ⟨g, hg, hge⟩
        · rcases (mem_putEntry hg).1 with hgf | ⟨k, hk, hkg⟩
          · exact .inr ⟨f, List.mem_cons_self .., hgf.symm.trans hge⟩
          · exact .inl ⟨k, hk, hkg.trans hge⟩
        · exact .inr ⟨g, List.mem_cons_of_mem _ hg, hge⟩
      · rcases hvalue with ⟨g, hg, hge⟩ | ⟨g, hg, hge⟩
        · rcases (mem_putEntry hg).2 with hgf | ⟨k, hk, hkg⟩
          · exact .inr ⟨f, List.mem_cons_self .., hgf.symm.trans hge⟩
          · exact .inl ⟨k, hk, hkg.trans hge⟩
        · exact .inr ⟨g, List.mem_cons_of_mem _ hg, hge⟩
  obtain ⟨hkey, hvalue⟩ := hfold es [] h
  refine ⟨hkey.resolve_left ?_, hvalue.resolve_left ?_⟩
  · exact fun ⟨_, hf, _⟩ => List.not_mem_nil hf
  · exact fun ⟨_, hf, _⟩ => List.not_mem_nil hf

/-- **The keys of a map are apart.** -/
theorem apart_mapEntries {es : List (Value × Value)} (h : ∀ e ∈ es, Proper e.1) :
    Apart ((mapEntries es).map Prod.fst) := by
  have hfold : ∀ (es kept : List (Value × Value)), (∀ e ∈ es, Proper e.1) →
      (∀ e ∈ kept, Proper e.1) → Apart (kept.map Prod.fst) →
      Apart ((es.foldl (fun kept e => putEntry e.1 e.2 kept) kept).map Prod.fst) := by
    intro es
    induction es with
    | nil => exact fun kept _ _ hapart => hapart
    | cons e es ih =>
      intro kept hes hkept hapart
      obtain ⟨he, hrest⟩ := List.forall_mem_cons.mp hes
      refine ih _ hrest (fun f hf => ?_) ?_
      · rcases (mem_putEntry hf).1 with hfe | ⟨g, hg, hgf⟩
        · exact hfe ▸ he
        · exact hgf ▸ hkept g hg
      · show Apart ((putEntry e.1 e.2 kept).map Prod.fst)
        rcases keys_putEntry e.1 e.2 kept with hkeys | hnone
        · rwa [hkeys]
        · rw [putEntry_of_new e.2 hnone, List.map_append]
          refine List.pairwise_append.mpr ⟨hapart, List.pairwise_singleton .., ?_⟩
          intro k hk k' hk'
          obtain ⟨f, hf, rfl⟩ := List.mem_map.mp hk
          obtain rfl : k' = e.1 := List.mem_singleton.mp hk'
          refine ⟨hnone f hf, ?_⟩
          rw [he.same_comm (hkept f hf)]
          exact hnone f hf
  exact hfold es [] h nofun .nil

/-- Entries with keys that are apart make up a map as they are. -/
theorem mapEntries_of_apart {es : List (Value × Value)} (h : Apart (es.map Prod.fst)) :
    mapEntries es = es := by
  have hfold : ∀ (es kept : List (Value × Value)), Apart ((kept ++ es).map Prod.fst) →
      es.foldl (fun kept e => putEntry e.1 e.2 kept) kept = kept ++ es := by
    intro es
    induction es with
    | nil => exact fun kept _ => (List.append_nil kept).symm
    | cons e es ih =>
      intro kept hapart
      have hassoc : kept ++ e :: es = kept ++ [e] ++ es := by simp
      have hlast : putEntry e.1 e.2 kept = kept ++ [e] := by
        rw [List.map_append] at hapart
        refine putEntry_of_new e.2 fun f hf => ?_
        exact ((List.pairwise_append.mp hapart).2.2 f.1 (List.mem_map_of_mem hf) e.1
          (List.mem_cons_self ..)).1
      rw [List.foldl_cons, hlast, hassoc]
      exact ih _ (hassoc ▸ hapart)
  exact hfold es [] h

end ScanJobs.Value
