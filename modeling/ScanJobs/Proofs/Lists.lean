import Mathlib.Data.List.Forall2

/-! # Lists that correspond

Two lists of which each item corresponds to that of the other in its place, or to some item of the
other. -/

namespace ScanJobs

variable {α β γ δ : Type}

theorem exists_left_of_forall₂ {R : α → β → Prop} {xs : List α} {ys : List β}
    (h : List.Forall₂ R xs ys) {y : β} (hy : y ∈ ys) : ∃ x ∈ xs, R x y := by
  induction h with
  | nil => cases hy
  | cons hxy hrest ih =>
    rcases List.mem_cons.mp hy with rfl | hy
    · exact ⟨_, List.mem_cons_self .., hxy⟩
    · obtain ⟨x, hx, hR⟩ := ih hy
      exact ⟨x, List.mem_cons_of_mem _ hx, hR⟩

theorem exists_right_of_forall₂ {R : α → β → Prop} {xs : List α} {ys : List β}
    (h : List.Forall₂ R xs ys) {x : α} (hx : x ∈ xs) : ∃ y ∈ ys, R x y :=
  exists_left_of_forall₂ h.flip hx

theorem exists_forall₂ {R : α → β → Prop} {xs : List α} (h : ∀ x ∈ xs, ∃ y, R x y) :
    ∃ ys, List.Forall₂ R xs ys := by
  induction xs with
  | nil => exact ⟨[], .nil⟩
  | cons x xs ih =>
    obtain ⟨⟨y, hy⟩, hrest⟩ := List.forall_mem_cons.mp h
    obtain ⟨ys, hys⟩ := ih hrest
    exact ⟨y :: ys, .cons hy hys⟩

theorem forall₂_imp_of_mem {R S : α → β → Prop} {xs : List α} {ys : List β}
    (h : List.Forall₂ R xs ys) (hRS : ∀ x ∈ xs, ∀ y ∈ ys, R x y → S x y) : List.Forall₂ S xs ys := by
  induction h with
  | nil => exact .nil
  | cons hxy hrest ih =>
    refine .cons (hRS _ (List.mem_cons_self ..) _ (List.mem_cons_self ..) hxy) (ih ?_)
    exact fun x hx y hy => hRS x (List.mem_cons_of_mem _ hx) y (List.mem_cons_of_mem _ hy)

theorem forall₂_trans_of_mem {R : α → β → Prop} {S : β → γ → Prop} {T : α → γ → Prop} {xs : List α}
    {ys : List β} {zs : List γ} (h : List.Forall₂ R xs ys) (h' : List.Forall₂ S ys zs)
    (hT : ∀ x ∈ xs, ∀ y ∈ ys, ∀ z ∈ zs, R x y → S y z → T x z) : List.Forall₂ T xs zs := by
  induction h generalizing zs with
  | nil =>
    cases h'
    exact .nil
  | cons hxy hrest ih =>
    rcases h' with _ | ⟨hyz, hrest'⟩
    refine .cons (hT _ (List.mem_cons_self ..) _ (List.mem_cons_self ..) _ (List.mem_cons_self ..)
      hxy hyz) (ih hrest' ?_)
    exact fun x hx y hy z hz => hT x (List.mem_cons_of_mem _ hx) y (List.mem_cons_of_mem _ hy) z
      (List.mem_cons_of_mem _ hz)

/-- Items that correspond may take each other's places. -/
theorem forall₂_iff_forall₂ {S : α → β → Prop} {T : γ → δ → Prop} {P : α → γ → Prop} {Q : β → δ → Prop}
    {xs : List α} {ys : List β} {us : List γ} {vs : List δ} (hxs : List.Forall₂ S xs ys)
    (hus : List.Forall₂ T us vs)
    (h : ∀ x ∈ xs, ∀ {y u v}, S x y → T u v → (P x u ↔ Q y v)) :
    List.Forall₂ P xs us ↔ List.Forall₂ Q ys vs := by
  induction hxs generalizing us vs with
  | nil =>
    cases hus with
    | nil => exact ⟨fun _ => .nil, fun _ => .nil⟩
    | cons hu hrest => exact ⟨nofun, nofun⟩
  | cons hxy hrest ih =>
    cases hus with
    | nil => exact ⟨nofun, nofun⟩
    | cons huv hrest' =>
      rw [List.forall₂_cons, List.forall₂_cons, h _ (List.mem_cons_self ..) hxy huv,
        ih hrest' fun x hx => h x (List.mem_cons_of_mem _ hx)]

theorem forall₂_prod {R : α → γ → Prop} {S : β → δ → Prop} {es : List (α × β)}
    {fs : List (γ × δ)} : List.Forall₂ (fun e f => R e.1 f.1 ∧ S e.2 f.2) es fs ↔
      List.Forall₂ R (es.map Prod.fst) (fs.map Prod.fst) ∧
        List.Forall₂ S (es.map Prod.snd) (fs.map Prod.snd) := by
  induction es generalizing fs with
  | nil => cases fs <;> simp
  | cons e es ih =>
    cases fs with
    | nil => simp
    | cons f fs =>
      simp only [List.map_cons, List.forall₂_cons, ih]
      tauto

theorem map_eq_map_iff_forall₂ {f : α → γ} {g : β → γ} {xs : List α} {ys : List β} :
    xs.map f = ys.map g ↔ List.Forall₂ (fun x y => f x = g y) xs ys := by
  rw [← List.forall₂_eq_eq_eq, List.forall₂_map_left_iff, List.forall₂_map_right_iff]

/-- **Of as many items each has its own**, if each of the first list has one and no two share it. -/
theorem exists_left_of_injective {R : α → β → Prop} {xs : List α} {ys : List β}
    (hlength : xs.length = ys.length) (hmatch : ∀ x ∈ xs, ∃ y ∈ ys, R x y)
    (hapart : xs.Pairwise fun a b => ∀ y ∈ ys, R a y → ¬ R b y) : ∀ y ∈ ys, ∃ x ∈ xs, R x y := by
  induction xs generalizing ys with
  | nil =>
    obtain rfl := List.length_eq_zero_iff.mp hlength.symm
    exact nofun
  | cons x xs ih =>
    obtain ⟨y₀, hy₀, hx⟩ := hmatch x (List.mem_cons_self ..)
    obtain ⟨before, after, rfl⟩ := List.append_of_mem hy₀
    obtain ⟨hfirst, hrest⟩ := List.pairwise_cons.mp hapart
    have hsub : ∀ y ∈ before ++ after, y ∈ before ++ y₀ :: after := by
      intro y hy
      simp only [List.mem_append, List.mem_cons] at hy ⊢
      tauto
    have hshorter : xs.length = (before ++ after).length := by
      simp only [List.length_append, List.length_cons] at hlength ⊢
      omega
    -- the others have theirs among the items that are left
    have hleft : ∀ x' ∈ xs, ∃ y ∈ before ++ after, R x' y := by
      intro x' hx'
      obtain ⟨y, hy, hR⟩ := hmatch x' (List.mem_cons_of_mem _ hx')
      have hne : y ≠ y₀ := by
        rintro rfl
        exact hfirst x' hx' y hy hx hR
      refine ⟨y, ?_, hR⟩
      simp only [List.mem_append, List.mem_cons] at hy ⊢
      tauto
    have hothers := ih hshorter hleft (hrest.imp fun h y hy => h y (hsub y hy))
    intro y hy
    have hcases : y = y₀ ∨ y ∈ before ++ after := by
      simp only [List.mem_append, List.mem_cons] at hy ⊢
      tauto
    rcases hcases with rfl | hy
    · exact ⟨x, List.mem_cons_self .., hx⟩
    · obtain ⟨x', hx', hR⟩ := hothers y hy
      exact ⟨x', List.mem_cons_of_mem _ hx', hR⟩

end ScanJobs
