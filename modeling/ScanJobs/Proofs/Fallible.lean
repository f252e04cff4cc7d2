import ScanJobs.Act

/-! # Results that may be failures

When a chain of fallible steps succeeds, and with what; and how far a chain of acts came
(`Act.on_bind_cases`). What the parts of an act keep, and how they fail, is what the whole keeps and how it
fails (`Act.Keeps`, `Act.FailsWith`). Acts agree where their parts do, if the parts lead to no state where
they do not (`Act.AgreeOn`). -/

namespace ScanJobs

variable {ε ε' α β : Type}

theorem bind_eq_ok_iff {x : Except ε α} {f : α → Except ε β} {b : β} :
    x >>= f = .ok b ↔ ∃ a, x = .ok a ∧ f a = .ok b := by
  cases x with
  | error e => exact ⟨fun h => (by cases h), fun ⟨_, h, _⟩ => (by cases h)⟩
  | ok a => exact ⟨fun h => ⟨a, rfl, h⟩, fun ⟨_, h, h'⟩ => (by cases h; exact h')⟩

theorem bind_eq_error_iff {x : Except ε α} {f : α → Except ε β} {e : ε} :
    x >>= f = .error e ↔ x = .error e ∨ ∃ a, x = .ok a ∧ f a = .error e := by
  cases x with
  | error e' =>
    refine ⟨fun h => .inl (by cases h; rfl), ?_⟩
    rintro (h | ⟨a, h, -⟩)
    · cases h
      rfl
    · cases h
  | ok a =>
    refine ⟨fun h => .inr ⟨a, rfl, h⟩, ?_⟩
    rintro (h | ⟨a', h, ha⟩)
    · cases h
    · cases h
      exact ha

theorem map_eq_ok_iff {x : Except ε α} {f : α → β} {b : β} :
    x.map f = .ok b ↔ ∃ a, x = .ok a ∧ f a = b := by
  cases x with
  | error e => exact ⟨fun h => (by cases h), fun ⟨_, h, _⟩ => (by cases h)⟩
  | ok a => exact ⟨fun h => ⟨a, rfl, by cases h; rfl⟩,
      fun ⟨_, h, h'⟩ => (by cases h; cases h'; rfl)⟩

theorem map_eq_error_iff {x : Except ε α} {f : α → β} {e : ε} :
    x.map f = .error e ↔ x = .error e := by
  cases x with
  | error e' => exact ⟨fun h => (by cases h; rfl), fun h => (by cases h; rfl)⟩
  | ok a => exact ⟨fun h => (by cases h), fun h => by cases h⟩

theorem mapError_eq_ok_iff {x : Except ε α} {f : ε → ε'} {a : α} :
    x.mapError f = .ok a ↔ x = .ok a := by
  cases x with
  | error e => exact ⟨fun h => (by cases h), fun h => by cases h⟩
  | ok a => exact ⟨fun h => (by cases h; rfl), fun h => (by cases h; rfl)⟩

theorem mapError_eq_error_iff {x : Except ε α} {f : ε → ε'} {e : ε'} :
    x.mapError f = .error e ↔ ∃ e', x = .error e' ∧ f e' = e := by
  cases x with
  | error e' => exact ⟨fun h => ⟨e', rfl, by cases h; rfl⟩,
      fun ⟨_, h, h'⟩ => (by cases h; cases h'; rfl)⟩
  | ok a => exact ⟨fun h => (by cases h), fun ⟨_, h, _⟩ => by cases h⟩

theorem exists_error_iff {x : Except ε α} : (∃ e, x = .error e) ↔ ∀ a, x ≠ .ok a := by
  cases x with
  | error e => exact ⟨fun _ _ h => (by cases h), fun _ => ⟨e, rfl⟩⟩
  | ok a => exact ⟨fun ⟨_, h⟩ => (by cases h), fun h => absurd rfl (h a)⟩

/-- All items succeed, each with its own result. -/
theorem mapM_eq_ok_iff {f : α → Except ε β} {xs : List α} {ys : List β} :
    xs.mapM f = .ok ys ↔ xs.map f = ys.map .ok := by
  induction xs generalizing ys with
  | nil => cases ys <;> simp [pure, Except.pure]
  | cons x xs ih =>
    rw [List.mapM_cons, bind_eq_ok_iff]
    constructor
    · rintro ⟨y, hy, h⟩
      obtain ⟨ys', hys, h⟩ := bind_eq_ok_iff.mp h
      cases h
      rw [List.map_cons, hy, ih.mp hys, List.map_cons]
    · intro h
      cases ys with
      | nil => cases h
      | cons y ys =>
        rw [List.map_cons, List.map_cons, List.cons.injEq] at h
        refine ⟨y, h.1, ?_⟩
        rw [ih.mpr h.2]
        rfl

theorem mem_of_mapM {f : α → Except ε β} {xs : List α} {ys : List β} (h : xs.mapM f = .ok ys)
    {y : β} : y ∈ ys ↔ ∃ x ∈ xs, f x = .ok y := by
  have hmap := mapM_eq_ok_iff.mp h
  constructor
  · intro hy
    have hmem : Except.ok y ∈ xs.map f := by
      rw [hmap]
      exact List.mem_map_of_mem hy
    exact List.mem_map.mp hmem
  · rintro ⟨x, hx, hfx⟩
    have hmem : f x ∈ ys.map Except.ok := by
      rw [← hmap]
      exact List.mem_map_of_mem hx
    obtain ⟨y', hy', he⟩ := List.mem_map.mp hmem
    rw [hfx] at he
    cases he
    exact hy'

theorem exists_of_mapM {f : α → Except ε β} {xs : List α} {ys : List β} (h : xs.mapM f = .ok ys)
    {x : α} (hx : x ∈ xs) : ∃ y, f x = .ok y := by
  have hmem : f x ∈ ys.map Except.ok := by
    rw [← mapM_eq_ok_iff.mp h]
    exact List.mem_map_of_mem hx
  obtain ⟨y, -, he⟩ := List.mem_map.mp hmem
  exact ⟨y, he.symm⟩

/-- **The failure is that of the first item that fails.** -/
theorem mapM_eq_error_iff {f : α → Except ε β} {xs : List α} {e : ε} :
    xs.mapM f = .error e ↔ ∃ before x after, xs = before ++ x :: after ∧
      (∀ x' ∈ before, ∃ y, f x' = .ok y) ∧ f x = .error e := by
  induction xs with
  | nil =>
    refine ⟨nofun, ?_⟩
    rintro ⟨before, x, after, h, -⟩
    simp at h
  | cons x xs ih =>
    rw [List.mapM_cons, bind_eq_error_iff]
    constructor
    · rintro (hx | ⟨y, hy, hrest⟩)
      · exact ⟨[], x, xs, rfl, by simp, hx⟩
      · obtain ⟨before, x', after, rfl, hbefore, hx'⟩ := ih.mp (by
          rcases bind_eq_error_iff.mp hrest with h | ⟨ys, -, h⟩
          · exact h
          · cases h)
        exact ⟨x :: before, x', after, rfl, List.forall_mem_cons.mpr ⟨⟨y, hy⟩, hbefore⟩, hx'⟩
    · rintro ⟨before, x', after, hxs, hbefore, hx'⟩
      cases before with
      | nil =>
        obtain ⟨rfl, rfl⟩ := List.cons.inj hxs
        exact .inl hx'
      | cons x₀ before =>
        obtain ⟨rfl, rfl⟩ := List.cons.inj hxs
        obtain ⟨⟨y, hy⟩, hbefore⟩ := List.forall_mem_cons.mp hbefore
        have hrest := ih.mpr ⟨before, x', after, rfl, hbefore, hx'⟩
        exact .inr ⟨y, hy, bind_eq_error_iff.mpr (.inl hrest)⟩

theorem forM_eq_ok_iff {f : α → Except ε Unit} {xs : List α} :
    xs.forM f = .ok () ↔ ∀ x ∈ xs, f x = .ok () := by
  induction xs with
  | nil => exact ⟨fun _ _ h => absurd h List.not_mem_nil, fun _ => rfl⟩
  | cons x xs ih =>
    have hcons : (x :: xs).forM f = f x >>= fun _ => xs.forM f := rfl
    rw [hcons, bind_eq_ok_iff, List.forall_mem_cons, ih]
    exact ⟨fun ⟨_, hx, hxs⟩ => ⟨hx, hxs⟩, fun ⟨hx, hxs⟩ => ⟨(), hx, hxs⟩⟩

/-- If there is no list of results, the failure is that of an item. -/
theorem exists_of_mapM_error {f : α → Except ε β} {xs : List α} {e : ε}
    (h : xs.mapM f = .error e) : ∃ x ∈ xs, f x = .error e := by
  obtain ⟨before, x, after, rfl, -, hx⟩ := mapM_eq_error_iff.mp h
  exact ⟨x, by simp, hx⟩

/-- There is no list of results if some item fails, and only then. -/
theorem mapM_error_iff {f : α → Except ε β} {xs : List α} :
    (∃ e, xs.mapM f = .error e) ↔ ∃ x ∈ xs, ∃ e, f x = .error e := by
  constructor
  · rintro ⟨e, he⟩
    obtain ⟨x, hx, hfx⟩ := exists_of_mapM_error he
    exact ⟨x, hx, e, hfx⟩
  · rintro ⟨x, hx, e, he⟩
    rw [exists_error_iff]
    intro ys hys
    obtain ⟨y, hy⟩ := exists_of_mapM hys hx
    cases he.symm.trans hy

/-- A fold fails as one of its steps does. -/
theorem exists_of_foldlM_error {f : β → α → Except ε β} {xs : List α} {b : β} {e : ε}
    (h : xs.foldlM f b = .error e) : ∃ b', ∃ x ∈ xs, f b' x = .error e := by
  induction xs generalizing b with
  | nil => cases h
  | cons x xs ih =>
    rw [List.foldlM_cons, bind_eq_error_iff] at h
    rcases h with hx | ⟨b', -, hrest⟩
    · exact ⟨b, x, List.mem_cons_self .., hx⟩
    · obtain ⟨b'', x', hx', hf⟩ := ih hrest
      exact ⟨b'', x', List.mem_cons_of_mem _ hx', hf⟩

/-- A fold whose steps change nothing ends where it starts. -/
theorem foldlM_eq_ok_self {f : β → α → Except ε β} {xs : List α} {b : β}
    (h : ∀ x ∈ xs, f b x = .ok b) : xs.foldlM f b = .ok b := by
  induction xs with
  | nil => rfl
  | cons x xs ih =>
    rw [List.foldlM_cons, h x (List.mem_cons_self ..)]
    exact ih fun y hy => h y (List.mem_cons_of_mem _ hy)

/-- **A chain of acts ends where it fails**, or the first succeeds and the rest goes on from there. -/
theorem Act.on_bind_cases {σ : Type} {a : Act σ α} {k : α → Act σ β} {s s' : σ}
    {result : Except Failure β} (h : (a >>= k).on s = (result, s')) :
    (∃ f, a.on s = (.error f, s') ∧ result = .error f) ∨
      ∃ x s₁, a.on s = (.ok x, s₁) ∧ (k x).on s₁ = (result, s') := by
  rw [Act.on_bind] at h
  split at h
  · next x s₁ hx => exact .inr ⟨x, s₁, hx, h⟩
  · next f s₁ hf =>
    cases h
    exact .inl ⟨f, hf, rfl⟩

/-- Where the state after an act is not told, it is the one that the act leads to. -/
theorem Act.on_bind_fst_ok {σ : Type} {a : Act σ α} {s : σ} {x : α} (h : (a.on s).1 = .ok x)
    (k : α → Act σ β) : (a >>= k).on s = (k x).on (a.on s).2 :=
  Act.on_bind_ok (Prod.ext h rfl)

theorem Act.on_bind_fst_error {σ : Type} {a : Act σ α} {s : σ} {f : Failure}
    (h : (a.on s).1 = .error f) (k : α → Act σ β) : (a >>= k).on s = (.error f, (a.on s).2) :=
  Act.on_bind_error (Prod.ext h rfl)

/-- What follows an attempt is told how it ended. -/
theorem Act.on_attempt_bind {σ : Type} {a : Act σ α} {result : Except Failure α} {s s' : σ}
    (h : a.on s = (result, s')) (k : Except Failure α → Act σ β) :
    (a.attempt >>= k).on s = (k result).on s' := by
  refine Act.on_bind_ok ?_
  rw [Act.on_attempt, h]

theorem Act.on_read_bind {σ : Type} (f : σ → α) (k : α → Act σ β) (s : σ) :
    (Act.read f >>= k).on s = (k (f s)).on s :=
  Act.on_bind_ok (Act.on_read f s)

theorem Act.on_ofExcept_bind_error {σ : Type} {x : Except Failure α} {f : Failure} (h : x = .error f)
    (k : α → Act σ β) (s : σ) : (Act.ofExcept x >>= k).on s = (.error f, s) := by
  rw [h, Act.on_bind_error (Act.on_ofExcept _ s)]

theorem Act.on_ofExcept_bind_ok {σ : Type} {x : Except Failure α} {a : α} (h : x = .ok a)
    (k : α → Act σ β) (s : σ) : (Act.ofExcept x >>= k).on s = (k a).on s := by
  rw [h, Act.on_bind_ok (Act.on_ofExcept _ s)]

/-- What is made of the outcome of an act may be made of it afterwards. -/
theorem Act.on_bind_ofExcept {σ : Type} (a : Act σ α) (g : α → Except Failure β) (s : σ) :
    ((a >>= fun x => Act.ofExcept (g x)).on s).1 = (a.on s).1 >>= g := by
  rw [Act.on_bind]
  split
  · next x s' hx =>
    rw [hx]
    rfl
  · next f s' hf =>
    rw [hf]
    rfl

/-- What came of an act does not change with a last act that succeeds. -/
theorem Act.on_andFinally_ok {σ : Type} {a : Act σ α} {last : Act σ Unit} {s s₁ s₂ : σ}
    {result : Except Failure α} (ha : a.on s = (result, s₁)) (hlast : last.on s₁ = (.ok (), s₂)) :
    (a.andFinally last).on s = (result, s₂) := by
  rw [Act.on_andFinally, ha, hlast]

/-- An act that failed has failed, whatever the last act does. -/
theorem Act.on_andFinally_error {σ : Type} {a : Act σ α} (last : Act σ Unit) {s : σ} {f : Failure}
    (ha : (a.on s).1 = .error f) : ∃ f', ((a.andFinally last).on s).1 = .error f' := by
  rw [Act.on_andFinally]
  split
  · exact ⟨f, ha⟩
  · next f' _ _ => exact ⟨f', rfl⟩

/-- Acts that leave the state alone do so in turn. -/
theorem Act.on_mapM {σ : Type} {act : α → Act σ β} {g : α → β} {s : σ} {xs : List α}
    (h : ∀ x ∈ xs, (act x).on s = (.ok (g x), s)) : (xs.mapM act).on s = (.ok (xs.map g), s) := by
  induction xs with
  | nil => rfl
  | cons x xs ih =>
    have hrest := ih fun x' hx' => h x' (List.mem_cons_of_mem _ hx')
    rw [List.mapM_cons, Act.on_bind_ok (h x (List.mem_cons_self ..)), Act.on_bind_ok hrest]
    rfl

/-- **Acts in turn end with the first that fails**, and what those before it did stays done. -/
theorem Act.exists_of_forM_error {σ : Type} {act : α → Act σ Unit} {xs : List α} {s s' : σ}
    {f : Failure} (h : (xs.forM act).on s = (.error f, s')) :
    ∃ before x after s₁, xs = before ++ x :: after ∧ (before.forM act).on s = (.ok (), s₁) ∧
      (act x).on s₁ = (.error f, s') := by
  induction xs generalizing s with
  | nil => cases h
  | cons x xs ih =>
    rcases Act.on_bind_cases h with ⟨f', hx, hf⟩ | ⟨u, s₁, hx, hrest⟩
    · cases hf
      exact ⟨[], x, xs, s, rfl, rfl, hx⟩
    · obtain ⟨before, x', after, s₂, rfl, hbefore, hx'⟩ := ih hrest
      exact ⟨x :: before, x', after, s₂, rfl, (Act.on_bind_ok hx).trans hbefore, hx'⟩

/-! ### What acts keep -/

namespace Act

variable {σ : Type} {Q : σ → Prop}

/-- **The act keeps a property of the state**, whatever comes of it. -/
def Keeps (Q : σ → Prop) (a : Act σ α) : Prop :=
  ∀ s, Q s → Q (a.on s).2

theorem Keeps.bind {a : Act σ α} {k : α → Act σ β} (ha : a.Keeps Q) (hk : ∀ x, (k x).Keeps Q) :
    (a >>= k).Keeps Q := by
  intro s hs
  rw [on_bind]
  have h := ha s hs
  split
  · next x s' hx =>
    rw [hx] at h
    exact hk x s' h
  · next f s' hf =>
    rw [hf] at h
    exact h

theorem Keeps.andFinally {a : Act σ α} {last : Act σ Unit} (ha : a.Keeps Q) (hlast : last.Keeps Q) :
    (a.andFinally last).Keeps Q := by
  intro s hs
  have h := hlast (a.on s).2 (ha s hs)
  rw [on_andFinally]
  split
  · next s' h' =>
    rw [h'] at h
    exact h
  · next f s' h' =>
    rw [h'] at h
    exact h

theorem Keeps.attempt {a : Act σ α} (ha : a.Keeps Q) : a.attempt.Keeps Q :=
  ha

theorem keeps_ofExcept (e : Except Failure α) : (ofExcept e : Act σ α).Keeps Q :=
  fun _ hs => hs

theorem keeps_ofExcept_bind {e : Except Failure α} {k : α → Act σ β}
    (h : ∀ x, e = .ok x → (k x).Keeps Q) : (ofExcept e >>= k).Keeps Q := by
  intro s hs
  cases e with
  | error f => exact hs
  | ok x => exact h x rfl s hs

theorem keeps_read (f : σ → α) : (read f).Keeps Q :=
  fun _ hs => hs

theorem keeps_throw (f : Failure) : (throw f : Act σ α).Keeps Q :=
  fun _ hs => hs

theorem keeps_pure (x : α) : (pure x : Act σ α).Keeps Q :=
  fun _ hs => hs

/-- Acts in turn keep what each of them keeps. -/
theorem keeps_forM {act : α → Act σ Unit} (h : ∀ x, (act x).Keeps Q) (xs : List α) :
    (xs.forM act).Keeps Q := by
  induction xs with
  | nil => exact keeps_pure ()
  | cons x xs ih => exact (h x).bind fun _ => ih

/-! ### Acts that agree -/

/-- **The acts do the same** in states with the property. -/
def AgreeOn (Q : σ → Prop) (a b : Act σ α) : Prop :=
  ∀ s, Q s → a.on s = b.on s

theorem AgreeOn.bind {a b : Act σ α} {k k' : α → Act σ β} (hab : AgreeOn Q a b) (ha : a.Keeps Q)
    (hk : ∀ x, AgreeOn Q (k x) (k' x)) : AgreeOn Q (a >>= k) (b >>= k') := by
  intro s hs
  have hkept := ha s hs
  cases hb : a.on s with
  | mk result s' =>
    rw [hb] at hkept
    have hb' := (hab s hs).symm.trans hb
    cases result with
    | ok x => rw [on_bind_ok hb, on_bind_ok hb', hk x s' hkept]
    | error f => rw [on_bind_error hb, on_bind_error hb']

theorem AgreeOn.andFinally {a b : Act σ α} {last last' : Act σ Unit} (hab : AgreeOn Q a b)
    (ha : a.Keeps Q) (hlast : AgreeOn Q last last') :
    AgreeOn Q (a.andFinally last) (b.andFinally last') := by
  intro s hs
  rw [on_andFinally, on_andFinally, ← hab s hs, hlast _ (ha s hs)]

theorem AgreeOn.trans {a b c : Act σ α} (hab : AgreeOn Q a b) (hbc : AgreeOn Q b c) :
    AgreeOn Q a c :=
  fun s hs => (hab s hs).trans (hbc s hs)

theorem AgreeOn.keeps {a b : Act σ α} (hab : AgreeOn Q a b) (hb : b.Keeps Q) : a.Keeps Q := by
  intro s hs
  rw [hab s hs]
  exact hb s hs

theorem agreeOn_refl (a : Act σ α) : AgreeOn Q a a :=
  fun _ _ => rfl

theorem agreeOn_ofExcept_bind {e : Except Failure α} {k k' : α → Act σ β}
    (h : ∀ x, e = .ok x → AgreeOn Q (k x) (k' x)) : AgreeOn Q (ofExcept e >>= k) (ofExcept e >>= k') := by
  intro s hs
  cases e with
  | error f => rfl
  | ok x => exact h x rfl s hs

/-- Acts in turn agree if each of them agrees with its own. -/
theorem agreeOn_forM {act act' : α → Act σ Unit} (h : ∀ x, AgreeOn Q (act x) (act' x))
    (hkeep : ∀ x, (act x).Keeps Q) (xs : List α) : AgreeOn Q (xs.forM act) (xs.forM act') := by
  induction xs with
  | nil => exact agreeOn_refl _
  | cons x xs ih => exact (h x).bind (hkeep x) fun _ => ih

/-! ### How acts fail -/

variable {P : Failure → Prop}

/-- **The act has no failures but those with the property**, in whatever state it is. -/
def FailsWith (P : Failure → Prop) (a : Act σ α) : Prop :=
  ∀ s f, (a.on s).1 = .error f → P f

theorem FailsWith.bind {a : Act σ α} {k : α → Act σ β} (ha : a.FailsWith P)
    (hk : ∀ x, (k x).FailsWith P) : (a >>= k).FailsWith P := by
  intro s f h
  rcases on_bind_cases (Prod.ext h rfl) with ⟨f', ha', hf⟩ | ⟨x, s', -, hk'⟩
  · cases hf
    exact ha s f (congrArg Prod.fst ha')
  · exact hk x s' f (congrArg Prod.fst hk')

theorem FailsWith.andFinally {a : Act σ α} {last : Act σ Unit} (ha : a.FailsWith P)
    (hlast : last.FailsWith P) : (a.andFinally last).FailsWith P := by
  intro s f h
  rw [on_andFinally] at h
  split at h
  · exact ha s f h
  · next f' s' h' =>
    cases h
    exact hlast _ f (congrArg Prod.fst h')

theorem FailsWith.zoom {ρ : Type} {a : Act ρ α} (ha : a.FailsWith P) (get : σ → ρ)
    (set : ρ → σ → σ) : (zoom get set a).FailsWith P :=
  fun s f h => ha (get s) f h

theorem failsWith_ofExcept {e : Except Failure α} (h : ∀ f, e = .error f → P f) :
    (ofExcept e : Act σ α).FailsWith P :=
  fun _ f hf => h f hf

theorem failsWith_change (f : σ → σ) : (change f).FailsWith P :=
  fun _ _ h => nomatch h

theorem failsWith_throw {f : Failure} (h : P f) : (throw f : Act σ α).FailsWith P :=
  fun _ f' hf => by cases hf; exact h

theorem failsWith_pure (x : α) : (pure x : Act σ α).FailsWith P :=
  fun _ _ h => nomatch h

/-- Acts in turn fail as one of them does. -/
theorem failsWith_forM {act : α → Act σ Unit} (h : ∀ x, (act x).FailsWith P) (xs : List α) :
    (xs.forM act).FailsWith P := by
  induction xs with
  | nil => exact failsWith_pure ()
  | cons x xs ih => exact (h x).bind fun _ => ih

end Act

end ScanJobs
