import ScanJobs.Proofs.OptionType.Reread
import ScanJobs.Proofs.Value.Proper
import ScanJobs.Proofs.Value.Relisted

/-! # Values of a type

A value of a type is accepted as it is, but for the order in which sets are listed
(`exists_accept_of_typed`). What a value is taken for is of the type, unless an integer is meant and a
plain member is given, which is taken for its payload whatever that is (`typed_of_clear`). A value that was
accepted has no such member any more, so what is accepted a second time is always of the type
(`typed_of_accept_accept`). -/

namespace ScanJobs.OptionType

open Value

/-! ### Types and their values -/

/-- The type has no parts: its values are leaves. -/
def isPlain : OptionType → Bool
  | .any => false
  | .sequence _ _ => false
  | .record _ => false
  | .map _ _ => false
  | .optional τ => isPlain τ
  | .union τ₁ τ₂ => isPlain τ₁ && isPlain τ₂
  | _ => true

/-- An integer is meant, perhaps among others. -/
def meansInteger : OptionType → Bool
  | .integer => true
  | .optional τ => meansInteger τ
  | .union τ₁ τ₂ => meansInteger τ₁ || meansInteger τ₂
  | _ => false

/-- **Only types without parts are united.** -/
inductive PlainUnions : OptionType → Prop
  | plain {τ : OptionType} (h : τ.isPlain = true) : PlainUnions τ
  | any : PlainUnions .any
  | sequence {shape : Shape} {τ : OptionType} (h : PlainUnions τ) : PlainUnions (.sequence shape τ)
  | record {τs : List OptionType} (h : ∀ τ ∈ τs, PlainUnions τ) : PlainUnions (.record τs)
  | optional {τ : OptionType} (h : PlainUnions τ) : PlainUnions (.optional τ)
  | map {κ τ : OptionType} (hκ : PlainUnions κ) (hτ : PlainUnions τ) : PlainUnions (.map κ τ)

/-- **The value is of the type.** -/
inductive Typed : OptionType → Value → Prop
  | exact {τ : OptionType} {v : Value} (h : isExact τ v = true) : Typed τ v
  | any (v : Value) : Typed .any v
  | sequence {shape : Shape} {τ : OptionType} {xs : List Value} (h : ∀ x ∈ xs, Typed τ x) :
      Typed (.sequence shape τ) (shape.container xs)
  | record {τs : List OptionType} {xs : List Value} (h : List.Forall₂ Typed τs xs) :
      Typed (.record τs) (.tuple xs)
  | optional {τ : OptionType} {v : Value} (h : Typed τ v) : Typed (.optional τ) v
  | map {κ τ : OptionType} {es : List (Value × Value)} (hkeys : ∀ e ∈ es, Typed κ e.1)
      (hvalues : ∀ e ∈ es, Typed τ e.2) : Typed (.map κ τ) (.map es)

/-- **Where the type means an integer, the value has no plain member**, unless it is one that is meant
too. -/
inductive Clear : OptionType → Value → Prop
  | plain {τ : OptionType} {v : Value} (h : τ.isPlain = true)
      (hv : τ.meansInteger = true → isExact τ v = true ∨ ∀ m, v = .member m → m.transparent = true) :
      Clear τ v
  | any (v : Value) : Clear .any v
  | sequence {shape : Shape} {τ : OptionType} {v : Value}
      (h : ∀ xs, v.items? = some xs → ∀ x ∈ xs, Clear τ x) : Clear (.sequence shape τ) v
  | record {τs : List OptionType} {v : Value}
      (h : ∀ xs, v.items? = some xs → ∀ p ∈ τs.zip xs, Clear p.1 p.2) : Clear (.record τs) v
  | none {τ : OptionType} : Clear (.optional τ) .none
  | optional {τ : OptionType} {v : Value} (h : Clear τ v) : Clear (.optional τ) v
  | map {κ τ : OptionType} {v : Value} (hkeys : ∀ es, v = .map es → ∀ e ∈ es, Clear κ e.1)
      (hvalues : ∀ es, v = .map es → ∀ e ∈ es, Clear τ e.2) : Clear (.map κ τ) v

variable {τ κ : OptionType} {τs : List OptionType} {shape : Shape} {v w : Value}

theorem typed_sequence_iff :
    Typed (.sequence shape τ) v ↔ ∃ xs, v = shape.container xs ∧ ∀ x ∈ xs, Typed τ x := by
  constructor
  · intro h
    cases h with
    | exact h => exact (isExact_iff.mp h).elim
    | sequence h => exact ⟨_, rfl, h⟩
  · rintro ⟨xs, rfl, h⟩
    exact .sequence h

theorem typed_record_iff :
    Typed (.record τs) v ↔ ∃ xs, v = .tuple xs ∧ List.Forall₂ Typed τs xs := by
  constructor
  · intro h
    cases h with
    | exact h => exact (isExact_iff.mp h).elim
    | record h => exact ⟨_, rfl, h⟩
  · rintro ⟨xs, rfl, h⟩
    exact .record h

theorem typed_map_iff : Typed (.map κ τ) v ↔
    ∃ es, v = .map es ∧ (∀ e ∈ es, Typed κ e.1) ∧ ∀ e ∈ es, Typed τ e.2 := by
  constructor
  · intro h
    cases h with
    | exact h => exact (isExact_iff.mp h).elim
    | map hkeys hvalues => exact ⟨_, rfl, hkeys, hvalues⟩
  · rintro ⟨es, rfl, hkeys, hvalues⟩
    exact .map hkeys hvalues

theorem typed_optional_iff : Typed (.optional τ) v ↔ v = .none ∨ Typed τ v := by
  constructor
  · intro h
    cases h with
    | exact h => exact (isExact_iff.mp h).imp_right .exact
    | optional h => exact .inr h
  · rintro (rfl | h)
    · exact .exact (isExact_iff.mpr (.inl rfl))
    · exact .optional h

theorem typed_plain_iff : ∀ {τ : OptionType} {v : Value}, τ.isPlain = true →
    (Typed τ v ↔ isExact τ v = true)
  | .optional τ, v, h => by
    have hrest : τ.isPlain = true := h
    rw [typed_optional_iff, isExact_iff, typed_plain_iff hrest]
  | .text, v, _ | .integer, v, _ | .float, v, _ | .boolean, v, _ | .member _, v, _
  | .literal _, v, _ | .union _ _, v, _ => by
    refine ⟨fun ht => ?_, .exact⟩
    cases ht with
    | exact ht => exact ht
  | .any, _, h | .sequence _ _, _, h | .record _, _, h | .map _ _, _, h => by cases h

/-! ### What each type accepts -/

/-- Each value is accepted for the type in its place. -/
inductive AcceptsEach : List OptionType → List Value → List Value → Prop
  | nil : AcceptsEach [] [] []
  | cons {τ : OptionType} {τs : List OptionType} {x y : Value} {xs ys : List Value}
      (h : accept τ x = .ok y) (hrest : AcceptsEach τs xs ys) :
      AcceptsEach (τ :: τs) (x :: xs) (y :: ys)

theorem acceptEach_eq_ok_iff {xs ys : List Value} (h : xs.length ≤ τs.length) :
    acceptEach τs xs = .ok ys ↔ AcceptsEach τs xs ys := by
  induction τs generalizing xs ys with
  | nil =>
    obtain rfl := List.length_eq_zero_iff.mp (Nat.le_zero.mp h)
    rw [acceptEach]
    constructor
    · rintro ⟨⟩
      exact .nil
    · rintro ⟨⟩
      rfl
  | cons τ τs ih =>
    cases xs with
    | nil =>
      rw [acceptEach]
      constructor
      · intro hys
        obtain ⟨p, hp, -⟩ := map_eq_ok_iff.mp hys
        cases (both_eq_ok_iff.mp hp).1
      · intro h
        cases h
    | cons x xs =>
      rw [acceptEach, map_eq_ok_iff]
      have hrest : ∀ ys, acceptEach τs xs = .ok ys ↔ AcceptsEach τs xs ys :=
        fun _ => ih (Nat.le_of_succ_le_succ h)
      constructor
      · rintro ⟨⟨y, ys⟩, hp, rfl⟩
        obtain ⟨hy, hys⟩ := both_eq_ok_iff.mp hp
        exact .cons hy ((hrest ys).mp hys)
      · rintro (_ | ⟨hy, hys⟩)
        exact ⟨(_, _), both_eq_ok_iff.mpr ⟨hy, (hrest _).mpr hys⟩, rfl⟩

theorem AcceptsEach.length_eq {xs ys : List Value} (h : AcceptsEach τs xs ys) :
    xs.length = τs.length := by
  induction h with
  | nil => rfl
  | cons h hrest ih => rw [List.length_cons, List.length_cons, ih]

theorem accept_record_iff : accept (.record τs) v = .ok w ↔
    ∃ xs ys, v.items? = some xs ∧ AcceptsEach τs xs ys ∧ w = .tuple ys := by
  unfold accept
  cases hv : v.items? with
  | none =>
    constructor
    · intro h
      cases h
    · rintro ⟨_, _, h, -⟩
      cases h
  | some xs =>
    dsimp only
    split
    · next hlong =>
      constructor
      · intro h
        cases h
      · rintro ⟨_, ys, ⟨⟩, hys, -⟩
        exact absurd hys.length_eq hlong.ne'
    · next hlong =>
      rw [map_eq_ok_iff]
      constructor
      · rintro ⟨ys, hys, rfl⟩
        exact ⟨xs, ys, rfl, (acceptEach_eq_ok_iff (Nat.not_lt.mp hlong)).mp hys, rfl⟩
      · rintro ⟨_, ys, ⟨⟩, hys, rfl⟩
        exact ⟨ys, (acceptEach_eq_ok_iff (Nat.not_lt.mp hlong)).mpr hys, rfl⟩

theorem accept_sequence_iff : accept (.sequence shape τ) v = .ok w ↔
    ∃ xs ys, v.items? = some xs ∧ List.Forall₂ (fun x y => accept τ x = .ok y ∧
      (shape.isSet = true → y.isHashable = true)) xs ys ∧ w = shape.wrap ys := by
  have hitem : ∀ x y, (accept τ x >>= itemFor shape) = .ok y ↔
      accept τ x = .ok y ∧ (shape.isSet = true → y.isHashable = true) := by
    intro x y
    rw [bind_eq_ok_iff]
    constructor
    · rintro ⟨z, hz, hy⟩
      obtain ⟨hset, rfl⟩ := itemFor_eq_ok_iff.mp hy
      exact ⟨hz, by simpa using hset⟩
    · rintro ⟨hy, hset⟩
      exact ⟨y, hy, itemFor_eq_ok_iff.mpr ⟨by simpa using hset, rfl⟩⟩
  cases hv : v.items? with
  | none =>
    rw [accept, hv]
    constructor
    · intro h
      cases h
    · rintro ⟨_, _, h, -⟩
      cases h
  | some xs =>
    rw [accept_sequence_eq_ok_iff hv]
    simp only [map_eq_map_iff_forall₂, hitem]
    constructor
    · rintro ⟨ys, hys, rfl⟩
      exact ⟨xs, ys, rfl, hys, rfl⟩
    · rintro ⟨_, ys, ⟨⟩, hys, rfl⟩
      exact ⟨ys, hys, rfl⟩

theorem accept_map_iff : accept (.map κ τ) v = .ok w ↔
    ∃ es fs, v = .map es ∧
      List.Forall₂ (fun e f => accept κ e.1 = .ok f.1 ∧ accept τ e.2 = .ok f.2) es fs ∧
      w = .map (mapEntries fs) := by
  by_cases hv : ∃ es, v = .map es
  · obtain ⟨es, rfl⟩ := hv
    rw [accept]
    simp only [map_eq_ok_iff, all_eq_ok_iff, map_eq_map_iff_forall₂, both_eq_ok_iff]
    constructor
    · rintro ⟨fs, hfs, rfl⟩
      exact ⟨es, fs, rfl, hfs, rfl⟩
    · rintro ⟨_, fs, ⟨⟩, hfs, rfl⟩
      exact ⟨fs, hfs, rfl⟩
  · constructor
    · intro h
      rw [accept] at h
      · cases h
      · exact fun es hes => hv ⟨es, hes⟩
    · rintro ⟨es, _, rfl, -⟩
      exact (hv ⟨es, rfl⟩).elim

theorem accept_optional_iff : accept (.optional τ) v = .ok w ↔
    (v = .none ∧ w = .none) ∨ (v ≠ .none ∧ accept τ v = .ok w) := by
  by_cases hv : v = .none
  · subst hv
    rw [accept]
    simp [eq_comm]
  · rw [accept_optional hv]
    simp [hv]

/-- **A type without parts takes a value for one of its own**, or, where it means an integer, a plain
member for its payload. -/
theorem isExact_or_payload_of_accept : ∀ {τ : OptionType} {v w : Value}, τ.isPlain = true →
    accept τ v = .ok w → isExact τ w = true ∨
      (τ.meansInteger = true ∧ ∃ m, v = .member m ∧ m.transparent = false ∧ w = m.payload.value)
  | .text, v, w, _, h | .float, v, w, _, h | .boolean, v, w, _, h => by
    unfold accept at h
    obtain ⟨a, -, rfl⟩ := map_eq_ok_iff.mp h
    exact .inl rfl
  | .integer, v, w, _, h => by
    unfold accept at h
    rw [required_eq_ok_iff] at h
    unfold integral? at h
    split at h
    · next family name payload =>
      cases h
      exact .inr ⟨rfl, _, rfl, rfl, rfl⟩
    · obtain ⟨n, -, rfl⟩ := Option.map_eq_some_iff.mp h
      exact .inl rfl
  | .member e, v, w, _, h => by
    unfold accept at h
    obtain ⟨m, hm, rfl⟩ := map_eq_ok_iff.mp h
    rw [required_eq_ok_iff] at hm
    have hconverted : memberOf?.converted e v = some m → m.family = e.family := by
      intro hc
      obtain ⟨p, -, hp⟩ := Option.bind_eq_some_iff.mp hc
      obtain ⟨entry, -, rfl⟩ := Option.map_eq_some_iff.mp hp
      rfl
    refine .inl (isExact_iff.mpr ⟨m, rfl, ?_⟩)
    unfold memberOf? at hm
    split at hm
    · split at hm
      · next hfamily =>
        cases hm
        exact hfamily
      · exact hconverted hm
    · exact hconverted hm
  | .literal choices, v, w, _, h => by
    unfold accept at h
    obtain ⟨t, ht, rfl⟩ := map_eq_ok_iff.mp h
    rw [required_eq_ok_iff] at ht
    obtain ⟨-, hmem⟩ := Option.filter_eq_some_iff.mp ht
    exact .inl (isExact_iff.mpr ⟨t, by simpa using hmem, rfl⟩)
  | .optional τ, v, w, hτ, h => by
    rcases accept_optional_iff.mp h with ⟨-, rfl⟩ | ⟨-, h⟩
    · exact .inl (isExact_iff.mpr (.inl rfl))
    · have hrest : τ.isPlain = true := hτ
      exact (isExact_or_payload_of_accept hrest h).imp_left fun h => isExact_iff.mpr (.inr h)
  | .union τ₁ τ₂, v, w, hτ, h => by
    rw [isPlain, Bool.and_eq_true] at hτ
    rw [isExact, meansInteger, Bool.or_eq_true, Bool.or_eq_true]
    have haccept : accept τ₁ v = .ok w ∨ accept τ₂ v = .ok w := by
      unfold accept at h
      split at h
      · exact .inr h
      · split at h
        · next h₁ =>
          cases h
          exact .inl h₁
        · exact .inr (mapError_eq_ok_iff.mp h)
    rcases haccept with h | h
    · exact (isExact_or_payload_of_accept hτ.1 h).imp .inl (And.imp_left .inl)
    · exact (isExact_or_payload_of_accept hτ.2 h).imp .inr (And.imp_left .inr)
  | .any, _, _, hτ, _ | .sequence _ _, _, _, hτ, _ | .record _, _, _, hτ, _
  | .map _ _, _, _, hτ, _ => by cases hτ

theorem isLeaf_of_accept_plain (hτ : τ.isPlain = true) (h : accept τ v = .ok w) :
    w.isLeaf = true := by
  rcases isExact_or_payload_of_accept hτ h with hw | ⟨-, m, -, -, rfl⟩
  · exact isLeaf_of_isExact hw
  · cases m.payload <;> rfl

/-! ### What is accepted is proper -/

theorem Proper.wrap {ys : List Value} (h : ∀ y ∈ ys, Proper y)
    (hhashable : shape.isSet = true → ∀ y ∈ ys, y.isHashable = true) : Proper (shape.wrap ys) := by
  rw [Shape.wrap_eq]
  split
  · refine .container (fun y hy => h y (mem_of_mem_setItems hy)) (fun hs y hy => ?_) fun _ => ?_
    · exact hhashable hs y (mem_of_mem_setItems hy)
    · exact apart_setItems h
  · next hs => exact .container h (fun hs' => absurd hs' hs) fun hs' => absurd hs' hs

/-- **What a proper value is taken for is proper.** -/
theorem proper_of_accept (hτ : PlainUnions τ) (hv : Proper v) (h : accept τ v = .ok w) : Proper w := by
  induction hτ generalizing v w with
  | plain hτ => exact .leaf (isLeaf_of_accept_plain hτ h)
  | any =>
    unfold accept at h
    cases h
    exact hv
  | sequence hτ ih =>
    obtain ⟨xs, ys, hxs, hys, rfl⟩ := accept_sequence_iff.mp h
    refine Proper.wrap (fun y hy => ?_) fun hs y hy => ?_
    · obtain ⟨x, hx, hxy, -⟩ := exists_left_of_forall₂ hys hy
      exact ih (hv.of_items? hxs x hx) hxy
    · obtain ⟨x, -, -, hhashable⟩ := exists_left_of_forall₂ hys hy
      exact hhashable hs
  | record hτs ih =>
    obtain ⟨xs, ys, hxs, hys, rfl⟩ := accept_record_iff.mp h
    refine Proper.of_ordered (s := .tuple) rfl ?_
    have hproper := hv.of_items? hxs
    clear h hv hxs
    induction hys with
    | nil => exact List.forall_mem_nil _
    | cons hy hrest ihrest =>
      refine List.forall_mem_cons.mpr ⟨?_, ?_⟩
      · exact ih _ (List.mem_cons_self ..) (hproper _ (List.mem_cons_self ..)) hy
      · refine ihrest (fun τ h => hτs τ (List.mem_cons_of_mem _ h)) (fun τ h => ih τ
          (List.mem_cons_of_mem _ h)) fun x hx => hproper x (List.mem_cons_of_mem _ hx)
  | optional hτ ih =>
    rcases accept_optional_iff.mp h with ⟨-, rfl⟩ | ⟨-, h⟩
    · exact .leaf rfl
    · exact ih hv h
  | map hκ hτ ihκ ihτ =>
    obtain ⟨es, fs, rfl, hfs, rfl⟩ := accept_map_iff.mp h
    obtain ⟨hkeys, hvalues, -⟩ := hv.of_map
    have hkeys' : ∀ f ∈ fs, Proper f.1 := by
      intro f hf
      obtain ⟨e, he, hkey, -⟩ := exists_left_of_forall₂ hfs hf
      exact ihκ (hkeys e he) hkey
    refine .map (fun g hg => ?_) (fun g hg => ?_) (apart_mapEntries hkeys')
    · obtain ⟨f, hf, hfg⟩ := (mem_mapEntries hg).1
      exact hfg ▸ hkeys' f hf
    · obtain ⟨f, hf, hfg⟩ := (mem_mapEntries hg).2
      obtain ⟨e, he, -, hvalue⟩ := exists_left_of_forall₂ hfs hf
      exact hfg ▸ ihτ (hvalues e he) hvalue

/-! ### Values of the type are accepted -/

theorem Relisted.apart {xs ys : List Value} (h : List.Forall₂ Relisted xs ys) (hapart : Apart xs) :
    Apart ys := by
  induction h with
  | nil => exact .nil
  | cons hxy hrest ih =>
    obtain ⟨hfirst, hothers⟩ := List.pairwise_cons.mp hapart
    refine List.pairwise_cons.mpr ⟨fun y' hy' => ?_, ih hothers⟩
    obtain ⟨x', hx', hxy'⟩ := exists_left_of_forall₂ hrest hy'
    rw [← hxy.same_eq hxy', ← hxy'.same_eq hxy]
    exact hfirst x' hx'

/-- Items that are apart are wrapped as they are, but for the order of a set. -/
theorem Relisted.wrap {xs ys : List Value} (h : List.Forall₂ Relisted xs ys)
    (hapart : shape.isSet = true → Apart xs) : Relisted (shape.container xs) (shape.wrap ys) := by
  rw [Shape.wrap_eq]
  refine .container h ?_ fun hs => by simp [hs]
  split
  · next hs => exact (setItems_perm_of_apart (Relisted.apart h (hapart hs))).symm
  · exact .refl _

/-- **A value of the type is taken for itself**, but for the order of its sets. -/
theorem exists_accept_of_typed (hτ : PlainUnions τ) (hw : Proper w) (h : Typed τ w) :
    ∃ w', accept τ w = .ok w' ∧ Relisted w w' := by
  induction hτ generalizing w with
  | plain hτ =>
    have hexact := (typed_plain_iff hτ).mp h
    exact ⟨w, accept_of_isExact hexact, .leaf (isLeaf_of_isExact hexact)⟩
  | any => exact ⟨w, by rw [accept], .refl w⟩
  | sequence hτ ih =>
    obtain ⟨xs, rfl, hxs⟩ := typed_sequence_iff.mp h
    obtain ⟨hproper, hset⟩ := hw.of_container
    obtain ⟨ys, hys⟩ := exists_forall₂ fun x hx => ih (hproper x hx) (hxs x hx)
    have hrelisted := forall₂_imp_of_mem hys fun x _ y _ hxy => hxy.2
    refine ⟨_, accept_sequence_iff.mpr ⟨xs, ys, Shape.items?_container .., ?_, rfl⟩,
      Relisted.wrap hrelisted fun hs => (hset hs).2⟩
    refine forall₂_imp_of_mem hys fun x hx y _ hxy => ⟨hxy.1, fun hs => ?_⟩
    rw [← hxy.2.isHashable_eq]
    exact (hset hs).1 x hx
  | @record τs hτs ih =>
    obtain ⟨xs, rfl, hxs⟩ := typed_record_iff.mp h
    have hproper : ∀ x ∈ xs, Proper x := hw.of_items? rfl
    obtain ⟨ys, hys, hrelisted⟩ : ∃ ys, AcceptsEach τs xs ys ∧ List.Forall₂ Relisted xs ys := by
      clear h hw
      induction hxs with
      | nil => exact ⟨[], .nil, .nil⟩
      | cons hx hrest ihrest =>
        obtain ⟨y, hy, hxy⟩ := ih _ (List.mem_cons_self ..) (hproper _ (List.mem_cons_self ..)) hx
        obtain ⟨ys, hys, hrelisted⟩ := ihrest (fun τ h => hτs τ (List.mem_cons_of_mem _ h))
          (fun τ h => ih τ (List.mem_cons_of_mem _ h)) fun x hx => hproper x (List.mem_cons_of_mem _ hx)
        exact ⟨y :: ys, .cons hy hys, .cons hxy hrelisted⟩
    exact ⟨_, accept_record_iff.mpr ⟨xs, ys, rfl, hys, rfl⟩,
      .container (s := .tuple) hrelisted (.refl _) fun _ => rfl⟩
  | optional hτ ih =>
    by_cases hnone : w = .none
    · exact ⟨.none, accept_optional_iff.mpr (.inl ⟨hnone, rfl⟩), hnone ▸ .refl _⟩
    · obtain ⟨w', hw', hrelisted⟩ := ih hw ((typed_optional_iff.mp h).resolve_left hnone)
      exact ⟨w', accept_optional_iff.mpr (.inr ⟨hnone, hw'⟩), hrelisted⟩
  | @map κ τ hκ hτ ihκ ihτ =>
    obtain ⟨es, rfl, hkeys, hvalues⟩ := typed_map_iff.mp h
    obtain ⟨hkeysProper, hvaluesProper, hapart⟩ := hw.of_map
    have hentry : ∀ e ∈ es, ∃ f : Value × Value, (accept κ e.1 = .ok f.1 ∧ Relisted e.1 f.1) ∧
        accept τ e.2 = .ok f.2 ∧ Relisted e.2 f.2 := by
      intro e he
      obtain ⟨k, hk⟩ := ihκ (hkeysProper e he) (hkeys e he)
      obtain ⟨x, hx⟩ := ihτ (hvaluesProper e he) (hvalues e he)
      exact ⟨(k, x), hk, hx⟩
    obtain ⟨fs, hfs⟩ := exists_forall₂ hentry
    obtain ⟨hrelisted, hrelisted'⟩ := forall₂_prod.mp (forall₂_imp_of_mem hfs
      fun e _ f _ hef => (⟨hef.1.2, hef.2.2⟩ : Relisted e.1 f.1 ∧ Relisted e.2 f.2))
    refine ⟨_, accept_map_iff.mpr ⟨es, fs, rfl, ?_, rfl⟩, ?_⟩
    · exact forall₂_imp_of_mem hfs fun e _ f _ hef => ⟨hef.1.1, hef.2.1⟩
    · rw [mapEntries_of_apart (Relisted.apart hrelisted hapart)]
      exact .map hrelisted hrelisted'

/-- Values of the type are told whatever the order of their sets. -/
theorem Typed.of_relisted (hτ : PlainUnions τ) (h : Typed τ w) (hvw : Relisted v w) : Typed τ v := by
  induction hτ generalizing v w with
  | plain hτ =>
    have hleaf := isLeaf_of_isExact ((typed_plain_iff hτ).mp h)
    rw [← hvw.isLeaf_eq] at hleaf
    exact hvw.eq_of_isLeaf hleaf ▸ h
  | any => exact .any v
  | sequence hτ ih =>
    obtain ⟨zs, rfl, hzs⟩ := typed_sequence_iff.mp h
    obtain ⟨xs, ys, rfl, hxs, hp, -⟩ := hvw.of_container_right
    refine .sequence fun x hx => ?_
    obtain ⟨y, hy, hxy⟩ := exists_right_of_forall₂ hxs hx
    exact ih (hzs y (hp.mem_iff.mp hy)) hxy
  | record hτs ih =>
    obtain ⟨zs, rfl, hzs⟩ := typed_record_iff.mp h
    obtain ⟨xs, ys, rfl, hxs, -, hs⟩ := Relisted.of_container_right (s := .tuple) hvw
    obtain rfl := hs rfl
    exact .record (forall₂_trans_of_mem hzs hxs.flip fun τ hτ z _ x _ hz hxz => ih τ hτ hz hxz)
  | optional hτ ih =>
    rcases typed_optional_iff.mp h with rfl | h
    · exact typed_optional_iff.mpr (.inl (hvw.eq_of_isLeaf hvw.isLeaf_eq).symm)
    · exact .optional (ih h hvw)
  | map hκ hτ ihκ ihτ =>
    obtain ⟨fs, rfl, hkeys, hvalues⟩ := typed_map_iff.mp h
    obtain ⟨es, rfl, hes⟩ := hvw.of_map_right
    refine .map (fun e he => ?_) fun e he => ?_
    · obtain ⟨f, hf, hkey, -⟩ := exists_right_of_forall₂ hes he
      exact ihκ (hkeys f hf) hkey
    · obtain ⟨f, hf, -, hvalue⟩ := exists_right_of_forall₂ hes he
      exact ihτ (hvalues f hf) hvalue

/-! ### What is accepted is of the type -/

theorem mem_of_mem_wrap {ys zs : List Value} (h : (shape.wrap ys).items? = some zs) :
    ∀ z ∈ zs, z ∈ ys := by
  rw [Shape.wrap_eq, Shape.items?_container] at h
  obtain rfl := Option.some.inj h
  intro z hz
  split at hz
  · exact mem_of_mem_setItems hz
  · exact hz

/-- **What a value is taken for is of the type**, if there is no plain member where an integer is meant. -/
theorem typed_of_clear (hv : Clear τ v) (h : accept τ v = .ok w) : Typed τ w := by
  induction hv generalizing w with
  | plain hτ hv =>
    rcases isExact_or_payload_of_accept hτ h with hw | ⟨hinteger, m, rfl, hm, -⟩
    · exact .exact hw
    · rcases hv hinteger with hexact | hno
      · cases (accept_of_isExact hexact).symm.trans h
        exact .exact hexact
      · cases hm.symm.trans (hno m rfl)
  | any v => exact .any w
  | sequence hv ih =>
    obtain ⟨xs, ys, hxs, hys, rfl⟩ := accept_sequence_iff.mp h
    rw [Shape.wrap_eq]
    refine .sequence fun z hz => ?_
    have hmem : z ∈ ys := by
      split at hz
      · exact Value.mem_of_mem_setItems hz
      · exact hz
    obtain ⟨x, hx, hxz, -⟩ := exists_left_of_forall₂ hys hmem
    exact ih xs hxs x hx hxz
  | record hv ih =>
    obtain ⟨xs, ys, hxs, hys, rfl⟩ := accept_record_iff.mp h
    have hclear := ih xs hxs
    clear ih hv h hxs
    refine .record ?_
    induction hys with
    | nil => exact .nil
    | cons hy hrest ihrest =>
      exact .cons (hclear (_, _) (List.mem_cons_self ..) hy)
        (ihrest fun p hp => hclear p (List.mem_cons_of_mem _ hp))
  | none =>
    rcases accept_optional_iff.mp h with ⟨-, rfl⟩ | ⟨hno, -⟩
    · exact typed_optional_iff.mpr (.inl rfl)
    · exact absurd rfl hno
  | optional hv ih =>
    rcases accept_optional_iff.mp h with ⟨-, rfl⟩ | ⟨-, h⟩
    · exact typed_optional_iff.mpr (.inl rfl)
    · exact .optional (ih h)
  | map hkeys hvalues ihkeys ihvalues =>
    obtain ⟨es, fs, rfl, hfs, rfl⟩ := accept_map_iff.mp h
    refine .map (fun g hg => ?_) fun g hg => ?_
    · obtain ⟨f, hf, hfg⟩ := (mem_mapEntries hg).1
      obtain ⟨e, he, hkey, -⟩ := exists_left_of_forall₂ hfs hf
      exact hfg ▸ ihkeys es rfl e he hkey
    · obtain ⟨f, hf, hfg⟩ := (mem_mapEntries hg).2
      obtain ⟨e, he, -, hvalue⟩ := exists_left_of_forall₂ hfs hf
      exact hfg ▸ ihvalues es rfl e he hvalue

/-- **What was accepted has no plain members** where an integer is meant. -/
theorem clear_of_accept (hτ : PlainUnions τ) (h : accept τ v = .ok w) : Clear τ w := by
  induction hτ generalizing v w with
  | plain hτ =>
    refine .plain hτ fun _ => (isExact_or_payload_of_accept hτ h).imp_right ?_
    rintro ⟨-, m, -, -, rfl⟩ m' hm'
    cases hp : m.payload with
    | int n =>
      rw [hp] at hm'
      cases hm'
    | text s =>
      rw [hp] at hm'
      cases hm'
  | any => exact .any w
  | sequence hτ ih =>
    obtain ⟨xs, ys, -, hys, rfl⟩ := accept_sequence_iff.mp h
    refine .sequence fun zs hzs z hz => ?_
    obtain ⟨x, -, hxz, -⟩ := exists_left_of_forall₂ hys (mem_of_mem_wrap hzs z hz)
    exact ih hxz
  | record hτs ih =>
    obtain ⟨xs, ys, -, hys, rfl⟩ := accept_record_iff.mp h
    refine .record fun zs hzs => ?_
    obtain rfl : ys = zs := Option.some.inj hzs
    clear h hzs
    induction hys with
    | nil => exact List.forall_mem_nil _
    | cons hy hrest ihrest =>
      refine List.forall_mem_cons.mpr ⟨ih _ (List.mem_cons_self ..) hy, ?_⟩
      exact ihrest (fun τ h => hτs τ (List.mem_cons_of_mem _ h)) fun τ h =>
        ih τ (List.mem_cons_of_mem _ h)
  | optional hτ ih =>
    rcases accept_optional_iff.mp h with ⟨-, rfl⟩ | ⟨-, h⟩
    · exact .none
    · exact .optional (ih h)
  | map hκ hτ ihκ ihτ =>
    obtain ⟨es, fs, -, hfs, rfl⟩ := accept_map_iff.mp h
    refine .map ?_ ?_
    · rintro _ ⟨⟩ g hg
      obtain ⟨f, hf, hfg⟩ := (mem_mapEntries hg).1
      obtain ⟨e, -, hkey, -⟩ := exists_left_of_forall₂ hfs hf
      exact hfg ▸ ihκ hkey
    · rintro _ ⟨⟩ g hg
      obtain ⟨f, hf, hfg⟩ := (mem_mapEntries hg).2
      obtain ⟨e, -, -, hvalue⟩ := exists_left_of_forall₂ hfs hf
      exact hfg ▸ ihτ hvalue

/-- **What is accepted twice is of the type.** -/
theorem typed_of_accept_accept {w' : Value} (hτ : PlainUnions τ) (h : accept τ v = .ok w)
    (h' : accept τ w = .ok w') : Typed τ w' :=
  typed_of_clear (clear_of_accept hτ h) h'

end ScanJobs.OptionType
