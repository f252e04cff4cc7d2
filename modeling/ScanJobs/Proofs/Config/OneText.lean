import ScanJobs.Proofs.Config.Writable
import ScanJobs.Proofs.OptionType.Typed

/-! # Equal sets have one text

Integers and texts are the same only if they are one (`eq_of_same`), and a set lists them in one order. So
of integers and texts there is one set for each way to be the same (`setItems_eq_of_same`), whatever order,
repetitions and spellings it was read from, and values that stand for the same set are written alike
(`equal_sets_written_alike`). In which order each of the two sets hands out its items does not matter, for
they are sorted, and integers or texts are sorted in one way (`sorted_of_ofOneSort`). A set of texts is
always written. Where integers are meant, a member may stand for a text; a set that has one beside an
integer is not written, and neither is one with an integer of too many digits. -/

namespace ScanJobs

namespace Value

/-- The value is an integer or a text itself. -/
def isScalar : Value → Bool
  | .int _ => true
  | .text _ => true
  | _ => false

variable {a b : Value} {xs ys : List Value}

theorem isScalar_iff : a.isScalar = true ↔ (∃ n, a = .int n) ∨ ∃ s, a = .text s := by
  cases a <;> simp [isScalar]

theorem isLeaf_of_isScalar (h : a.isScalar = true) : a.isLeaf = true := by
  rcases isScalar_iff.mp h with ⟨n, rfl⟩ | ⟨s, rfl⟩
  · rfl
  · rfl

theorem isRow_of_isScalar (h : a.isScalar = true) : a.isRow = false := by
  rcases isScalar_iff.mp h with ⟨n, rfl⟩ | ⟨s, rfl⟩
  · rfl
  · rfl

theorem same_self_of_isScalar (h : a.isScalar = true) : same a a = true := by
  rw [same_leaf (isLeaf_of_isScalar h)]
  rcases isScalar_iff.mp h with ⟨n, rfl⟩ | ⟨s, rfl⟩
  · exact Number.eq_dyadic_iff.mpr rfl
  · exact beq_self_eq_true s

/-- **Integers and texts that are the same are one.** -/
theorem eq_of_same (ha : a.isScalar = true) (hb : b.isScalar = true) (h : same a b = true) :
    a = b := by
  rw [same_leaf (isLeaf_of_isScalar ha)] at h
  rcases isScalar_iff.mp ha with ⟨m, rfl⟩ | ⟨s, rfl⟩
  · rcases isScalar_iff.mp hb with ⟨n, rfl⟩ | ⟨t, rfl⟩
    · have hrational := Number.eq_dyadic_iff.mp h
      have hmn : m = n := by simpa [Number.rational] using hrational
      rw [hmn]
    · exact absurd h Bool.false_ne_true
  · rcases isScalar_iff.mp hb with ⟨n, rfl⟩ | ⟨t, rfl⟩
    · exact absurd h Bool.false_ne_true
    · have hst : (s == t) = true := h
      rw [eq_of_beq hst]

/-- Each of them has one place in the order of a set. -/
theorem eq_of_precedes (ha : a.isScalar = true) (hb : b.isScalar = true)
    (hab : precedes a b = true) (hba : precedes b a = true) : a = b := by
  rcases isScalar_iff.mp ha with ⟨m, rfl⟩ | ⟨s, rfl⟩
  · rcases isScalar_iff.mp hb with ⟨n, rfl⟩ | ⟨t, rfl⟩
    · have hord : Orderly [.int m, .int n] := orderly_ints (by simp)
      exact (hord (.int m) (by simp) (.int n) (by simp)).2 hab hba
    · exact absurd hba Bool.false_ne_true
  · rcases isScalar_iff.mp hb with ⟨n, rfl⟩ | ⟨t, rfl⟩
    · exact absurd hab Bool.false_ne_true
    · have hord : Orderly [.text s, .text t] := orderly_texts (by simp)
      exact (hord (.text s) (by simp) (.text t) (by simp)).2 hab hba

theorem nodup_setItems (h : ∀ x ∈ xs, x.isScalar = true) : (setItems xs).Nodup := by
  have hdistinct := distinct_setItems fun x hx => isLeaf_of_isScalar (h x hx)
  refine hdistinct.imp_of_mem fun {a b} ha _ hab => ?_
  rintro rfl
  exact absurd (same_self_of_isScalar (h a (mem_of_mem_setItems ha))) (Bool.eq_false_iff.mp hab)

theorem setItems_eq_of_perm (hxs : ∀ x ∈ xs, x.isScalar = true)
    (hys : ∀ y ∈ ys, y.isScalar = true) (h : (setItems xs).Perm (setItems ys)) :
    setItems xs = setItems ys := by
  have hordered : ∀ {zs : List Value}, (∀ z ∈ zs, z.isScalar = true) →
      (setItems zs).Pairwise fun a b => precedes a b = true := fun hzs =>
    pairwise_mergeSort_leaf fun z hz => isLeaf_of_isScalar (hzs z ((distinct_spec _).2 z hz))
  refine h.eq_of_pairwise (fun a b ha hb hab hba => ?_) (hordered hxs) (hordered hys)
  exact eq_of_precedes (hxs a (mem_of_mem_setItems ha)) (hys b (mem_of_mem_setItems hb)) hab hba

/-- **There is one set of the same integers and texts.** -/
theorem setItems_eq_of_same (hxs : ∀ x ∈ xs, x.isScalar = true) (hys : ∀ y ∈ ys, y.isScalar = true)
    (hlength : (setItems xs).length = (setItems ys).length)
    (hin : ∀ x ∈ setItems xs, ∃ y ∈ setItems ys, same x y = true) : setItems xs = setItems ys := by
  have hsubset : setItems xs ⊆ setItems ys := by
    intro x hx
    obtain ⟨y, hy, hxy⟩ := hin x hx
    rw [eq_of_same (hxs x (mem_of_mem_setItems hx)) (hys y (mem_of_mem_setItems hy)) hxy]
    exact hy
  -- as many different items as there are in the other set are all of its items
  have hperm : (setItems xs).Perm (setItems ys) :=
    (List.subperm_of_subset (nodup_setItems hxs) hsubset).perm_of_length_le hlength.ge
  exact setItems_eq_of_perm hxs hys hperm

/-! ### What a set is read from -/

theorem mem_distinct_foldl {kept : List Value} (hxs : ∀ x ∈ xs, x.isScalar = true)
    (hkept : ∀ x ∈ kept, x.isScalar = true) (h : a ∈ kept ∨ a ∈ xs) :
    a ∈ xs.foldl (fun kept x => if isIn x kept then kept else kept ++ [x]) kept := by
  induction xs generalizing kept with
  | nil => exact h.resolve_right List.not_mem_nil
  | cons x xs ih =>
    have hx : x.isScalar = true := hxs x (List.mem_cons_self ..)
    have hrest : ∀ y ∈ xs, y.isScalar = true := fun y hy => hxs y (List.mem_cons_of_mem _ hy)
    rw [List.foldl_cons]
    by_cases hin : isIn x kept = true
    · rw [if_pos hin]
      obtain ⟨y, hy, hxy⟩ := List.any_eq_true.mp hin
      have hmem : x ∈ kept := eq_of_same hx (hkept y hy) hxy ▸ hy
      refine ih hrest hkept ?_
      rcases h with h | h
      · exact .inl h
      · rcases List.mem_cons.mp h with rfl | h
        · exact .inl hmem
        · exact .inr h
    · rw [if_neg hin]
      refine ih hrest ?_ ?_
      · intro y hy
        rcases List.mem_append.mp hy with hy | hy
        · exact hkept y hy
        · exact List.mem_singleton.mp hy ▸ hx
      · simp only [List.mem_append, List.mem_cons, List.not_mem_nil, or_false] at h ⊢
        tauto

/-- A set has the items that it is made of. -/
theorem mem_setItems_iff (h : ∀ x ∈ xs, x.isScalar = true) : a ∈ setItems xs ↔ a ∈ xs :=
  ⟨mem_of_mem_setItems, fun ha => (setItems_perm xs).mem_iff.mpr
    (mem_distinct_foldl h (fun _ hx => absurd hx List.not_mem_nil) (.inr ha))⟩

/-- **A set is told by the items that it is made of**, in whatever order and how often they were
listed. -/
theorem setItems_eq_iff (hxs : ∀ x ∈ xs, x.isScalar = true) (hys : ∀ y ∈ ys, y.isScalar = true) :
    setItems xs = setItems ys ↔ ∀ a, a ∈ xs ↔ a ∈ ys := by
  constructor
  · intro h a
    rw [← mem_setItems_iff hxs, h, mem_setItems_iff hys]
  · intro h
    refine setItems_eq_of_perm hxs hys ?_
    rw [List.perm_ext_iff_of_nodup (nodup_setItems hxs) (nodup_setItems hys)]
    intro a
    rw [mem_setItems_iff hxs, mem_setItems_iff hys]
    exact h a

end Value

namespace OptionType

/-- Where a text or an integer is meant, a value stands for a text or an integer. -/
theorem isScalar_of_accept {τ : OptionType} (hτ : τ = .text ∨ τ = .integer) {v w : Value}
    (h : accept τ v = .ok w) : w.isScalar = true := by
  have hplain : τ.isPlain = true := by
    rcases hτ with rfl | rfl
    · rfl
    · rfl
  rcases isExact_or_payload_of_accept hplain h with hw | ⟨-, m, -, -, rfl⟩
  · rcases hτ with rfl | rfl
    · obtain ⟨s, rfl⟩ := isExact_iff.mp hw
      rfl
    · obtain ⟨n, rfl⟩ := isExact_iff.mp hw
      rfl
  · cases m.payload <;> rfl

variable {shape : Shape} {xs ys : List Value}

theorem unordered?_container (h : shape.isSet = true) (xs : List Value) :
    (shape.container xs).unordered? = some xs := by
  cases shape with
  | list => cases h
  | tuple => cases h
  | set => rfl
  | frozenset => rfl

/-- **Two sets of integers and texts are the same** exactly if they are made of the same items. -/
theorem same_wrap_iff_mem_iff (hshape : shape.isSet = true) (hxs : ∀ x ∈ xs, x.isScalar = true)
    (hys : ∀ y ∈ ys, y.isScalar = true) :
    Value.same (shape.wrap xs) (shape.wrap ys) = true ↔ ∀ a, a ∈ xs ↔ a ∈ ys := by
  rw [Shape.wrap_of_isSet hshape, Shape.wrap_of_isSet hshape, ← Value.setItems_eq_iff hxs hys,
    Value.same_container_iff]
  constructor
  · rintro (⟨-, -, hlength, hin⟩ | ⟨hno, -⟩)
    · exact Value.setItems_eq_of_same hxs hys hlength hin
    · cases hno.symm.trans hshape
  · intro h
    refine .inl ⟨hshape, hshape, by rw [h], fun x hx => ⟨x, h ▸ hx, ?_⟩⟩
    exact Value.same_self_of_isScalar (hxs x (Value.mem_of_mem_setItems hx))

end OptionType

namespace Config

open Schema OptionType

variable {o : OptionRef} {shape : Shape} {τ : OptionType}

/-- **What is accepted as a set of texts or integers** is a set of such values. -/
theorem exists_scalars_of_validate (htype : o.type = .sequence shape τ)
    (hτ : τ = .text ∨ τ = .integer) {v w : Value} (h : validate o v = .ok w) :
    ∃ xs, w = shape.wrap xs ∧ (∀ x ∈ xs, x.isScalar = true) ∧
      ∀ x ∈ xs, ∃ y, τ.accept y = .ok x := by
  rw [validate_eq_ok_iff_accept, htype] at h
  obtain ⟨_, xs, -, rfl, hmem⟩ := exists_wrap_of_accept h
  refine ⟨xs, rfl, fun x hx => ?_, fun x hx => ?_⟩
  · obtain ⟨y, -, hy⟩ := hmem x hx
    exact isScalar_of_accept hτ hy
  · obtain ⟨y, -, hy⟩ := hmem x hx
    exact ⟨y, hy⟩

theorem isStorable_scalars_iff {xs : List Value} (h : ∀ x ∈ xs, x.isScalar = true) :
    (∀ x ∈ xs, x.isStorable = true) ↔ ∀ n, .int n ∈ xs → Numeral.IsShort n := by
  constructor
  · exact fun hall n hn => Value.isStorable_int_iff.mp (hall _ hn)
  · intro hall x hx
    rcases Value.isScalar_iff.mp (h x hx) with ⟨n, rfl⟩ | ⟨s, rfl⟩
    · exact Value.isStorable_int_iff.mpr (hall n hx)
    · rfl

/-- The items of a set of integers and texts are all of the one sort or of the other. -/
def OfOneSort (xs : List Value) : Prop :=
  (∀ x ∈ xs, ∃ n, x = .int n) ∨ ∀ x ∈ xs, ∃ s, x = .text s

/-- Integers and texts can be sorted if they are of one sort. -/
theorem sorted_iff_ofOneSort {xs : List Value} (h : ∀ x ∈ xs, x.isScalar = true) :
    (∃ ys, Value.sorted xs = .ok ys) ↔ OfOneSort xs := by
  rw [Value.sorted_eq_ok_iff fun x hx => Value.isRow_of_isScalar (h x hx)]
  constructor
  · rintro (hone | ⟨g, hg⟩)
    · match hzs : xs, hone with
      | [], _ => exact .inl nofun
      | [x], _ =>
        refine (Value.isScalar_iff.mp (h x (List.mem_cons_self ..))).imp ?_ ?_
        · exact fun hn y hy => List.mem_singleton.mp hy ▸ hn
        · exact fun hs y hy => List.mem_singleton.mp hy ▸ hs
    · -- the ground of all tells which of the two they are
      by_cases hnumber : g = .number
      · refine .inl fun x hx => (Value.isScalar_iff.mp (h x hx)).resolve_right ?_
        rintro ⟨s, rfl⟩
        cases hnumber.symm.trans (Option.some.inj (hg _ hx)).symm
      · refine .inr fun x hx => (Value.isScalar_iff.mp (h x hx)).resolve_left ?_
        rintro ⟨n, rfl⟩
        exact hnumber (Option.some.inj (hg _ hx)).symm
  · rintro (hints | htexts)
    · refine .inr ⟨.number, fun x hx => ?_⟩
      obtain ⟨n, rfl⟩ := hints x hx
      rfl
    · refine .inr ⟨.text, fun x hx => ?_⟩
      obtain ⟨s, rfl⟩ := htexts x hx
      rfl

/-- Of one sort, they are sorted alike in whatever order they come. -/
theorem sorted_of_ofOneSort {xs zs : List Value} (h : OfOneSort xs) (hp : zs.Perm xs) :
    ∃ ys, Value.sorted xs = .ok ys ∧ Value.sorted zs = .ok ys := by
  rcases h with hints | htexts
  · exact Value.comparedBy_int.sorted_of_perm (fun x hx => (hints x hx).imp fun _ => Eq.symm) hp
  · exact Value.comparedBy_text.sorted_of_perm (fun x hx => (htexts x hx).imp fun _ => Eq.symm) hp

/-- A set of integers and texts can be sorted in one order in which it hands them out if it can in any. -/
theorem sortable_iff_ofOneSort {l : Value.Listing} {w : Value} {xs : List Value}
    (hw : w.unordered? = some xs) (h : ∀ x ∈ xs, x.isScalar = true) :
    Sortable l w ↔ OfOneSort xs := by
  have hmem : ∀ x, x ∈ l.of xs ↔ x ∈ xs := fun x => (l.perm xs).mem_iff
  rw [sortable_iff_of_unordered hw, sorted_iff_ofOneSort fun x hx => h x ((hmem x).mp hx)]
  simp only [OfOneSort, hmem]

/-- What is written of it does not depend on this order. -/
theorem flattenIn_eq_ok_iff_of_scalars {l₁ l₂ : Value.Listing} {w : Value} {xs : List Value}
    (hw : w.unordered? = some xs) (h : ∀ x ∈ xs, x.isScalar = true) {t : String} :
    flattenIn l₁ w = .ok t ↔ flattenIn l₂ w = .ok t := by
  have hsame : OfOneSort xs → flattenIn l₁ w = flattenIn l₂ w := by
    intro hone
    refine flattenIn_eq_of_sorted fun zs hzs => ?_
    obtain rfl := Option.some.inj (hw.symm.trans hzs)
    obtain ⟨ys, hys, hys₁⟩ := sorted_of_ofOneSort hone (l₁.perm xs)
    obtain ⟨_, hys', hys₂⟩ := sorted_of_ofOneSort hone (l₂.perm xs)
    cases hys.symm.trans hys'
    rw [hys₁, hys₂]
  have hsort : ∀ {l : Value.Listing}, flattenIn l w = .ok t → OfOneSort xs := fun hflat =>
    (sortable_iff_ofOneSort hw h).mp (exists_flattenIn_iff.mp ⟨t, hflat⟩).1
  exact ⟨fun h₁ => hsame (hsort h₁) ▸ h₁, fun h₂ => hsame (hsort h₂) ▸ h₂⟩

/-- **Two values are written alike**, where the sets that they stand for hand out their items in one order
or another. -/
structure WrittenAlike (l₁ l₂ : Value.Listing) (o : OptionRef) (v₁ v₂ w : Value) : Prop where
  /-- A text of one is a text of the other. -/
  text : ∀ t, serializeIn l₁ o v₁ = .ok t ↔ serializeIn l₂ o v₂ = .ok t
  /-- There is a text exactly if the set has no integer beside a text, and no integer that is too long. -/
  written : (∃ t, serializeIn l₁ o v₁ = .ok t) ↔
    ∃ xs, w.items? = some xs ∧ OfOneSort xs ∧ ∀ n, .int n ∈ xs → Numeral.IsShort n
  /-- A set of texts has one. -/
  texts : ∀ shape, o.type = .sequence shape .text → ∃ t, serializeIn l₁ o v₁ = .ok t

/-- **Equal sets have one text**, and it is known which have any. -/
theorem equal_sets_written_alike (hshape : shape.isSet = true) (hτ : τ = .text ∨ τ = .integer)
    (htype : o.type = .sequence shape τ) {v₁ v₂ w₁ w₂ : Value} (h₁ : validate o v₁ = .ok w₁)
    (h₂ : validate o v₂ = .ok w₂) (hsame : w₁.same w₂ = true) (l₁ l₂ : Value.Listing) :
    WrittenAlike l₁ l₂ o v₁ v₂ w₁ := by
  obtain ⟨xs, rfl, hxs, htexts⟩ := exists_scalars_of_validate htype hτ h₁
  obtain ⟨ys, rfl, hys, -⟩ := exists_scalars_of_validate htype hτ h₂
  have hone : shape.wrap xs = shape.wrap ys := by
    have hitems := (Value.setItems_eq_iff hxs hys).mpr ((same_wrap_iff_mem_iff hshape hxs hys).mp hsame)
    rw [Shape.wrap_of_isSet hshape, Shape.wrap_of_isSet hshape, hitems]
  have hunordered : (shape.wrap xs).unordered? = some (Value.setItems xs) := by
    rw [Shape.wrap_of_isSet hshape, unordered?_container hshape]
  have hitems := Value.items?_of_unordered? hunordered
  have hscalar : ∀ x ∈ Value.setItems xs, x.isScalar = true :=
    fun x hx => hxs x (Value.mem_of_mem_setItems hx)
  have hwritten : (∃ t, serializeIn l₁ o v₁ = .ok t) ↔
      OfOneSort (Value.setItems xs) ∧ ∀ n, .int n ∈ Value.setItems xs → Numeral.IsShort n := by
    rw [exists_serializeIn_iff h₁, sortable_iff_ofOneSort hunordered hscalar,
      hasShortParts_iff_items hitems, isStorable_scalars_iff hscalar]
  refine ⟨fun t => ?_, ?_, ?_⟩
  · rw [serializeIn_eq_ok_iff, serializeIn_eq_ok_iff, h₁, h₂, ← hone]
    simp only [Except.ok.injEq, exists_eq_left']
    exact flattenIn_eq_ok_iff_of_scalars hunordered hscalar
  · rw [hwritten, hitems]
    simp only [Option.some.injEq, exists_eq_left']
  · intro shape' htype'
    obtain ⟨rfl, rfl⟩ : shape = shape' ∧ τ = .text := by
      rw [htype] at htype'
      exact ⟨by injection htype', by injection htype'⟩
    have htext : ∀ x ∈ Value.setItems xs, ∃ s, x = .text s := by
      intro x hx
      obtain ⟨y, hy⟩ := htexts x (Value.mem_of_mem_setItems hx)
      obtain ⟨s, hs⟩ := exists_text_of_accept hy
      exact ⟨s, hs.symm⟩
    refine hwritten.mpr ⟨.inr htext, fun n hn => ?_⟩
    obtain ⟨s, hs⟩ := htext _ hn
    cases hs

/-- The sets that hand out last what is listed first. -/
def backwards : Value.Listing :=
  ⟨List.reverse, List.reverse_perm⟩

/-- A list and a tuple that repeat and spell integers in different ways have one text. An integer beside
the text that a member stands for has none, in either order. -/
theorem sets_of_integers_written_alike :
    (WrittenAlike .textsFirst backwards (optionOf (.sequence .set .integer))
        (.list [.int 2, .int 1, .text " 1"]) (.tuple [.bool true, .int 2])
        (.set (Value.setItems [.int 2, .int 1, .int 1])) ∧
      ∃ t, serialize (optionOf (.sequence .set .integer)) (.list [.int 2, .int 1, .text " 1"]) = .ok t) ∧
    (∃ w₁ w₂, validate (optionOf (.sequence .set .integer))
          (.list [.int 1, .member (Script.colors.member ("RED", .text "red"))]) = .ok w₁ ∧
        validate (optionOf (.sequence .set .integer))
          (.list [.member (Script.colors.member ("RED", .text "red")), .int 1]) = .ok w₂ ∧
        w₁.same w₂ = true) ∧
      ¬ ∃ t, serialize (optionOf (.sequence .set .integer))
        (.list [.int 1, .member (Script.colors.member ("RED", .text "red"))]) = .ok t := by
  have hread : validate (optionOf (.sequence .set .integer)) (.list [.int 2, .int 1, .text " 1"]) =
      .ok (.set (Value.setItems [.int 2, .int 1, .int 1])) := rfl
  have hread' : validate (optionOf (.sequence .set .integer)) (.tuple [.bool true, .int 2]) =
      .ok (.set (Value.setItems [.int 1, .int 2])) := rfl
  have hmixed : validate (optionOf (.sequence .set .integer))
      (.list [.int 1, .member (Script.colors.member ("RED", .text "red"))]) =
      .ok (.set (Value.setItems [.int 1, .text "red"])) := rfl
  have hmixed' : validate (optionOf (.sequence .set .integer))
      (.list [.member (Script.colors.member ("RED", .text "red")), .int 1]) =
      .ok (.set (Value.setItems [.text "red", .int 1])) := rfl
  have hset : ∀ {xs ys : List Value}, (∀ x ∈ xs, x.isScalar = true) →
      (∀ y ∈ ys, y.isScalar = true) → (∀ a, a ∈ xs ↔ a ∈ ys) →
      Value.same (Shape.wrap .set xs) (Shape.wrap .set ys) = true :=
    fun hxs hys => (same_wrap_iff_mem_iff rfl hxs hys).mpr
  have hsame : Value.same (.set (Value.setItems [.int 2, .int 1, .int 1]))
      (.set (Value.setItems [.int 1, .int 2])) = true :=
    hset (by simp [Value.isScalar]) (by simp [Value.isScalar]) fun a => by simp [or_comm]
  have hsame' : Value.same (.set (Value.setItems [.int 1, .text "red"]))
      (.set (Value.setItems [.text "red", .int 1])) = true :=
    hset (by simp [Value.isScalar]) (by simp [Value.isScalar]) fun a => by simp [or_comm]
  have halike := equal_sets_written_alike rfl (.inr rfl) rfl hread hread' hsame .textsFirst backwards
  have hnone := equal_sets_written_alike rfl (.inr rfl) rfl hmixed hmixed' hsame' .textsFirst backwards
  have hints : ∀ x ∈ Value.setItems [.int 2, .int 1, .int 1], ∃ n, x = .int n := by
    intro x hx
    have hx' := Value.mem_of_mem_setItems hx
    simp only [List.mem_cons, List.not_mem_nil, or_false, or_self] at hx'
    rcases hx' with rfl | rfl
    · exact ⟨2, rfl⟩
    · exact ⟨1, rfl⟩
  have hmixture : ∀ a, a ∈ Value.setItems [.int 1, .text "red"] ↔ a ∈ [.int 1, .text "red"] :=
    fun a => Value.mem_setItems_iff (by simp [Value.isScalar])
  have hshort : ∀ n, .int n ∈ Value.setItems [.int 2, .int 1, .int 1] → Numeral.IsShort n := by
    intro n hn
    have hn' := Value.mem_of_mem_setItems hn
    simp only [List.mem_cons, List.not_mem_nil, or_false, or_self, Value.int.injEq] at hn'
    rcases hn' with rfl | rfl
    · decide
    · decide
  have hwritten := halike.written.mpr
    ⟨Value.setItems [.int 2, .int 1, .int 1], rfl, .inl hints, hshort⟩
  refine ⟨⟨halike, hwritten⟩, ?_, ?_⟩
  · exact ⟨.set (Value.setItems [.int 1, .text "red"]), .set (Value.setItems [.text "red", .int 1]),
      hmixed, hmixed', hsame'⟩
  · intro hsome
    obtain ⟨xs, hxs, hone, -⟩ := hnone.written.mp hsome
    obtain rfl : Value.setItems [.int 1, .text "red"] = xs := Option.some.inj hxs
    rcases hone with hints | htexts
    · obtain ⟨n, hn⟩ := hints (.text "red") ((hmixture _).mpr (by simp))
      cases hn
    · obtain ⟨s, hs⟩ := htexts (.int 1) ((hmixture _).mpr (by simp))
      cases hs

end Config

end ScanJobs
