import ScanJobs.Proofs.Value.Parts

/-! # Sets in another order

A set has no order of its own. Values that differ only in the order in which sets list their items
(`Relisted`) are told apart neither by equality (`Relisted.same_eq`) nor as items of a set
(`Relisted.isHashable_eq`). -/

namespace ScanJobs.Value

/-- **The same value, with its sets listed in another order.** -/
inductive Relisted : Value → Value → Prop
  | leaf {v : Value} (h : v.isLeaf = true) : Relisted v v
  /-- Only sets may be listed in another order. -/
  | container {s : Shape} {xs ys zs : List Value} (h : List.Forall₂ Relisted xs ys) (hp : ys.Perm zs)
      (hs : s.isSet = false → ys = zs) : Relisted (s.container xs) (s.container zs)
  | map {es fs : List (Value × Value)}
      (hkeys : List.Forall₂ Relisted (es.map Prod.fst) (fs.map Prod.fst))
      (hvalues : List.Forall₂ Relisted (es.map Prod.snd) (fs.map Prod.snd)) :
      Relisted (.map es) (.map fs)

namespace Relisted

variable {a b c d : Value} {s : Shape} {xs zs : List Value} {es fs : List (Value × Value)}

theorem refl (v : Value) : Relisted v v := by
  induction v using induction_on_parts with
  | leaf v h => exact .leaf h
  | container s xs ih => exact .container (List.forall₂_same.mpr ih) (.refl _) fun _ => rfl
  | map es hkeys hvalues =>
    refine .map (List.forall₂_same.mpr ?_) (List.forall₂_same.mpr ?_)
    · exact List.forall_mem_map.mpr hkeys
    · exact List.forall_mem_map.mpr hvalues

/-! ### What is relisted -/

theorem isLeaf_eq (h : Relisted a b) : a.isLeaf = b.isLeaf := by
  cases h with
  | leaf h => rfl
  | container h hp hs => rw [Shape.isLeaf_container, Shape.isLeaf_container]
  | map hkeys hvalues => rfl

theorem eq_of_isLeaf (h : Relisted a b) (ha : a.isLeaf = true) : b = a := by
  cases h with
  | leaf h => rfl
  | container h hp hs => cases (Shape.isLeaf_container ..).symm.trans ha
  | map hkeys hvalues => cases ha

/-- A container is relisted item by item, and then perhaps listed in another order. -/
theorem of_container (h : Relisted (s.container xs) b) :
    ∃ ys zs, b = s.container zs ∧ List.Forall₂ Relisted xs ys ∧ ys.Perm zs ∧
      (s.isSet = false → ys = zs) := by
  generalize ha : s.container xs = a at h
  cases h with
  | leaf h =>
    rw [← ha, Shape.isLeaf_container] at h
    cases h
  | container h hp hs =>
    obtain ⟨rfl, rfl⟩ := Shape.container_inj.mp ha
    exact ⟨_, _, rfl, h, hp, hs⟩
  | map hkeys hvalues => exact (Shape.container_ne_map _ _ _ ha).elim

theorem of_container_right (h : Relisted a (s.container zs)) :
    ∃ xs ys, a = s.container xs ∧ List.Forall₂ Relisted xs ys ∧ ys.Perm zs ∧
      (s.isSet = false → ys = zs) := by
  generalize hb : s.container zs = b at h
  cases h with
  | leaf h =>
    rw [← hb, Shape.isLeaf_container] at h
    cases h
  | container h hp hs =>
    obtain ⟨rfl, rfl⟩ := Shape.container_inj.mp hb
    exact ⟨_, _, rfl, h, hp, hs⟩
  | map hkeys hvalues => exact (Shape.container_ne_map _ _ _ hb).elim

theorem of_map (h : Relisted (.map es) b) :
    ∃ fs, b = .map fs ∧
      List.Forall₂ (fun e f => Relisted e.1 f.1 ∧ Relisted e.2 f.2) es fs := by
  generalize ha : Value.map es = a at h
  cases h with
  | leaf h =>
    rw [← ha] at h
    cases h
  | container h hp hs => exact (Shape.container_ne_map _ _ _ ha.symm).elim
  | map hkeys hvalues =>
    cases ha
    exact ⟨_, rfl, forall₂_prod.mpr ⟨hkeys, hvalues⟩⟩

theorem of_map_right (h : Relisted a (.map fs)) :
    ∃ es, a = .map es ∧
      List.Forall₂ (fun e f => Relisted e.1 f.1 ∧ Relisted e.2 f.2) es fs := by
  generalize hb : Value.map fs = b at h
  cases h with
  | leaf h =>
    rw [← hb] at h
    cases h
  | container h hp hs => exact (Shape.container_ne_map _ _ _ hb.symm).elim
  | map hkeys hvalues =>
    cases hb
    exact ⟨_, rfl, forall₂_prod.mpr ⟨hkeys, hvalues⟩⟩

/-! ### What does not tell them apart -/

/-- As many items, and each has its like on the other side. -/
theorem partners {ys : List Value} (h : List.Forall₂ Relisted xs ys) (hp : ys.Perm zs) :
    xs.length = zs.length ∧ (∀ x ∈ xs, ∃ z ∈ zs, Relisted x z) ∧ ∀ z ∈ zs, ∃ x ∈ xs, Relisted x z := by
  refine ⟨h.length_eq.trans hp.length_eq, fun x hx => ?_, fun z hz => ?_⟩
  · obtain ⟨y, hy, hxy⟩ := exists_right_of_forall₂ h hx
    exact ⟨y, hp.mem_iff.mp hy, hxy⟩
  · exact exists_left_of_forall₂ h (hp.mem_iff.mpr hz)

/-- Items have their like among others exactly if those in their places do. -/
theorem forall_exists_congr {α β γ δ : Type} {S : α → β → Prop} {T : γ → δ → Prop}
    {P : α → γ → Prop} {Q : β → δ → Prop} {xs : List α} {ys : List β} {us : List γ} {vs : List δ}
    (hxs : (∀ x ∈ xs, ∃ y ∈ ys, S x y) ∧ ∀ y ∈ ys, ∃ x ∈ xs, S x y)
    (hus : (∀ u ∈ us, ∃ v ∈ vs, T u v) ∧ ∀ v ∈ vs, ∃ u ∈ us, T u v)
    (h : ∀ x ∈ xs, ∀ {y u v}, S x y → T u v → (P x u ↔ Q y v)) :
    (∀ x ∈ xs, ∃ u ∈ us, P x u) ↔ ∀ y ∈ ys, ∃ v ∈ vs, Q y v := by
  constructor
  · intro hP y hy
    obtain ⟨x, hx, hxy⟩ := hxs.2 y hy
    obtain ⟨u, hu, hxu⟩ := hP x hx
    obtain ⟨v, hv, huv⟩ := hus.1 u hu
    exact ⟨v, hv, (h x hx hxy huv).mp hxu⟩
  · intro hQ x hx
    obtain ⟨y, hy, hxy⟩ := hxs.1 x hx
    obtain ⟨v, hv, hyv⟩ := hQ y hy
    obtain ⟨u, hu, huv⟩ := hus.2 v hv
    exact ⟨u, hu, (h x hx hxy huv).mpr hyv⟩

theorem same_iff (hab : Relisted a b) (hcd : Relisted c d) :
    same a c = true ↔ same b d = true := by
  induction a using induction_on_parts generalizing b c d with
  | leaf a ha =>
    obtain rfl := hab.eq_of_isLeaf ha
    cases hc : c.isLeaf with
    | true => rw [hcd.eq_of_isLeaf hc]
    | false => rw [same_leaf_left ha hc, same_leaf_left ha (hcd.isLeaf_eq ▸ hc)]
  | container s xs ih =>
    obtain ⟨ys, zs, rfl, hxs, hp, hs⟩ := hab.of_container
    obtain ⟨hlength, hpartners⟩ := partners hxs hp
    have hleaf : ∀ xs, (s.container xs).isLeaf = false := s.isLeaf_container
    rcases parts_cases c with hc | ⟨t, us, rfl⟩ | ⟨es, rfl⟩
    · rw [hcd.eq_of_isLeaf hc, same_leaf_right (hleaf xs) hc, same_leaf_right (hleaf zs) hc]
    · obtain ⟨vs, ws, rfl, hus, hp', hs'⟩ := hcd.of_container
      obtain ⟨hlength', hpartners'⟩ := partners hus hp'
      rw [same_container_iff, same_container_iff, hlength, hlength']
      have hsets := forall_exists_congr hpartners hpartners' fun x hx => ih x hx
      have hrows : s.isSet = false → s = t → (List.Forall₂ (fun x u => same x u = true) xs us ↔
          List.Forall₂ (fun z w => same z w = true) zs ws) := by
        rintro hset rfl
        rw [← hs hset, ← hs' hset]
        exact forall₂_iff_forall₂ hxs hus fun x hx => ih x hx
      rw [hsets]
      refine or_congr_right (and_congr_right fun hset => and_congr_right fun hst => hrows hset hst)
    · obtain ⟨fs, rfl, -⟩ := hcd.of_map
      rw [(same_container_map ..).1, (same_container_map ..).1]
  | map es hkeys hvalues =>
    obtain ⟨fs, rfl, hes⟩ := hab.of_map
    rcases parts_cases c with hc | ⟨t, us, rfl⟩ | ⟨gs, rfl⟩
    · rw [hcd.eq_of_isLeaf hc, same_leaf_right rfl hc, same_leaf_right rfl hc]
    · obtain ⟨vs, ws, rfl, -⟩ := hcd.of_container
      rw [(same_container_map ..).2, (same_container_map ..).2]
    · obtain ⟨hs, rfl, hgs⟩ := hcd.of_map
      rw [same_map_iff, same_map_iff, hes.length_eq, hgs.length_eq]
      refine and_congr_right fun _ => ?_
      refine forall_exists_congr ⟨fun e he => exists_right_of_forall₂ hes he, fun f hf =>
        exists_left_of_forall₂ hes hf⟩ ⟨fun g hg => exists_right_of_forall₂ hgs hg, fun h hh =>
        exists_left_of_forall₂ hgs hh⟩ ?_
      rintro e he f g h ⟨hkey, hvalue⟩ ⟨hkey', hvalue'⟩
      exact and_congr (hkeys e he hkey hkey') (hvalues e he hvalue hvalue')

/-- **Equality does not look at the order of sets.** -/
theorem same_eq (hab : Relisted a b) (hcd : Relisted c d) : same a c = same b d :=
  Bool.eq_iff_iff.mpr (hab.same_iff hcd)

theorem allHashable_iff {xs : List Value} :
    allHashable xs = true ↔ ∀ x ∈ xs, x.isHashable = true := by
  induction xs with
  | nil => simp [allHashable]
  | cons x xs ih => simp [allHashable, ih]

theorem isHashable_container {s : Shape} {xs : List Value} : (s.container xs).isHashable = true ↔
    s = .frozenset ∨ s = .tuple ∧ ∀ x ∈ xs, x.isHashable = true := by
  cases s <;> simp [Shape.container, isHashable, allHashable_iff]

/-- Neither does it count for what may be an item of a set. -/
theorem isHashable_eq (h : Relisted a b) : a.isHashable = b.isHashable := by
  induction a using induction_on_parts generalizing b with
  | leaf a ha => rw [h.eq_of_isLeaf ha]
  | container s xs ih =>
    obtain ⟨ys, zs, rfl, hxs, hp, -⟩ := h.of_container
    obtain ⟨-, hleft, hright⟩ := partners hxs hp
    rw [Bool.eq_iff_iff, isHashable_container, isHashable_container]
    refine or_congr_right (and_congr_right fun _ => ⟨fun hall z hz => ?_, fun hall x hx => ?_⟩)
    · obtain ⟨x, hx, hxz⟩ := hright z hz
      rw [← ih x hx hxz]
      exact hall x hx
    · obtain ⟨z, hz, hxz⟩ := hleft x hx
      rw [ih x hx hxz]
      exact hall z hz
  | map es hkeys hvalues =>
    obtain ⟨fs, rfl, -⟩ := h.of_map
    rfl

end Relisted

end ScanJobs.Value
