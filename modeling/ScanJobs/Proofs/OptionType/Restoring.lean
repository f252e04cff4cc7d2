import ScanJobs.Proofs.OptionType.Flat
import ScanJobs.Proofs.OptionType.Pieces
import ScanJobs.Proofs.OptionType.Reread
import ScanJobs.Proofs.Value.Ordered
import Mathlib.Data.Set.List

/-! # Values that are read back

A type restores a value if it takes the flat form of the value for the value itself (`Restores`). A
sequence is restored if each of its items is a piece that is read back, and if the items of a set can
be sorted (`restores_wrap`). Texts are read back whatever they are, so a sequence of them is restored
exactly if all of them are pieces (`restores_texts_iff`). -/

namespace ScanJobs.OptionType

open Text

/-- **The type restores a value**: the value has a flat form, and the type takes it for the value. -/
def Restores (τ : OptionType) (w : Value) : Prop :=
  ∃ s, flatten w = .ok s ∧ accept τ (τ.unflatten (.text s)) = .ok w

/-- What the flat form of a value is taken for does not depend on how the value was given. -/
theorem restores_iff {τ : OptionType} {w : Value} {s : String} (h : flatten w = .ok s) :
    Restores τ w ↔ accept τ (τ.unflatten (.text s)) = .ok w := by
  constructor
  · rintro ⟨s', hs', hw⟩
    cases h.symm.trans hs'
    exact hw
  · exact fun hw => ⟨s, h, hw⟩

theorem unflatten_of_not_sequence {τ : OptionType} (h : τ.isSequence = false) (v : Value) :
    τ.unflatten v = v := by
  unfold unflatten
  rw [h]

/-! ### Items -/

theorem isHashable_of_isLeaf {v : Value} (h : v.isLeaf = true) : v.isHashable = true := by
  cases v
  case list | tuple | set | frozenset | map => cases h
  all_goals
    unfold Value.isHashable
    rfl

theorem itemFor_leaf {v : Value} (h : v.isLeaf = true) (shape : Shape) :
    itemFor shape v = .ok v := by
  rw [itemFor_eq_ok_iff, isHashable_of_isLeaf h]
  simp

/-- Pieces between commas are taken one by one. -/
theorem accept_join_eq_ok_iff {shape : Shape} {τ : OptionType} {ps : List String} {w : Value}
    (h : ∀ p ∈ ps, Piece p) :
    accept (.sequence shape τ) (unflatten (.sequence shape τ) (.text (join ',' ps))) = .ok w ↔
      ∃ xs, ps.map (fun p => accept τ (.text p) >>= itemFor shape) = xs.map .ok ∧
        shape.wrap xs = w := by
  have hflat : unflatten (.sequence shape τ) (.text (join ',' ps)) = .list (ps.map .text) := by
    have hp : pieces (join ',' ps) = ps := pieces_join h
    unfold unflatten
    simp only [isSequence, Value.text?, hp]
  rw [hflat, accept_sequence_eq_ok_iff rfl, List.map_map]
  rfl

/-- A container is written with its items in some order, which does not matter, if each can be. -/
theorem exists_flatten_wrap {shape : Shape} {xs : List Value} (hleaf : ∀ x ∈ xs, x.isLeaf = true)
    (hstorable : ∀ x ∈ xs, x.isStorable = true) (hord : shape.isSet = true → Value.Orderly xs) :
    ∃ ys, flatten (shape.wrap xs) = .ok (flattenItems ys) ∧ (∀ y ∈ ys, y ∈ xs) ∧
      shape.wrap ys = shape.wrap xs := by
  have hset : Value.Orderly xs → ∃ ys,
      sortItems .textsFirst (Value.setItems xs) >>= writeItems = .ok (flattenItems ys) ∧
      (∀ y ∈ ys, y ∈ xs) ∧ Value.setItems ys = Value.setItems xs := by
    intro hord
    have hlisted := Value.Listing.textsFirst.perm (Value.setItems xs)
    obtain ⟨ys, hys, hp⟩ := Value.exists_sorted
      (hord.subset fun x hx => Value.mem_of_mem_setItems (hlisted.mem_iff.mp hx))
    have hperm := hp.trans hlisted
    have hmem : ∀ y ∈ ys, y ∈ xs := fun y hy => Value.mem_of_mem_setItems (hperm.mem_iff.mp hy)
    refine ⟨ys, ?_, hmem, Value.setItems_of_perm hleaf hord hperm⟩
    rw [sortItems_eq_ok_iff.mpr hys]
    exact writeItems_eq_ok_iff.mpr ⟨fun y hy => hstorable y (hmem y hy), rfl⟩
  cases shape with
  | list => exact ⟨xs, writeItems_eq_ok_iff.mpr ⟨hstorable, rfl⟩, fun _ hy => hy, rfl⟩
  | tuple => exact ⟨xs, writeItems_eq_ok_iff.mpr ⟨hstorable, rfl⟩, fun _ hy => hy, rfl⟩
  | set =>
    obtain ⟨ys, hflat, hsub, hitems⟩ := hset (hord rfl)
    exact ⟨ys, hflat, hsub, by rw [Shape.wrap, hitems, Shape.wrap]⟩
  | frozenset =>
    obtain ⟨ys, hflat, hsub, hitems⟩ := hset (hord rfl)
    exact ⟨ys, hflat, hsub, by rw [Shape.wrap, hitems, Shape.wrap]⟩

/-- A container is written with its items in some order. -/
theorem exists_perm_of_flatten {w : Value} {xs : List Value} (hitems : w.items? = some xs)
    {s : String} (h : flatten w = .ok s) : ∃ ys, ys.Perm xs ∧ s = flattenItems ys := by
  cases hw : w.unordered? with
  | some zs =>
    cases (Value.items?_of_unordered? hw).symm.trans hitems
    rw [flatten, flattenIn_of_unordered hw] at h
    obtain ⟨ys, hys, hwritten⟩ := bind_eq_ok_iff.mp h
    exact ⟨ys, perm_of_sortItems hys, (writeItems_eq_ok_iff.mp hwritten).2⟩
  | none =>
    cases w with
    | list zs | tuple zs =>
      cases hitems
      exact ⟨_, .refl _, (writeItems_eq_ok_iff.mp h).2⟩
    | set _ | frozenset _ => cases hw
    | _ => cases hitems

/-- **A sequence is restored** if its items are pieces that are read back. -/
theorem restores_wrap {shape : Shape} {τ : OptionType} {xs : List Value}
    (hleaf : ∀ x ∈ xs, x.isLeaf = true) (hstorable : ∀ x ∈ xs, x.isStorable = true)
    (hord : shape.isSet = true → Value.Orderly xs) (hpiece : ∀ x ∈ xs, Piece x.plain)
    (hread : ∀ x ∈ xs, accept τ (.text x.plain) = .ok x) :
    Restores (.sequence shape τ) (shape.wrap xs) := by
  obtain ⟨ys, hflat, hsub, hwrap⟩ := exists_flatten_wrap hleaf hstorable hord
  refine ⟨_, hflat, ?_⟩
  have hps : ∀ p ∈ ys.map Value.plain, Piece p := by
    intro p hp
    obtain ⟨y, hy, rfl⟩ := List.mem_map.mp hp
    exact hpiece y (hsub y hy)
  rw [flattenItems, accept_join_eq_ok_iff hps]
  refine ⟨ys, ?_, hwrap⟩
  rw [List.map_map]
  refine List.map_congr_left fun y hy => ?_
  change accept τ (.text y.plain) >>= itemFor shape = .ok y
  rw [hread y (hsub y hy)]
  exact itemFor_leaf (hleaf y (hsub y hy)) shape

/-! ### Accepted sequences -/

/-- A container has items that make it up. -/
theorem exists_items_of_wrap {xs : List Value} (hleaf : ∀ x ∈ xs, x.isLeaf = true) (shape : Shape) :
    ∃ ys, (shape.wrap xs).items? = some ys ∧ shape.wrap xs = shape.wrap ys ∧ ∀ y ∈ ys, y ∈ xs := by
  obtain ⟨ys, hitems, hsub, hwrap, -⟩ := wrap_items hleaf shape
  exact ⟨ys, hitems, hwrap.symm, hsub⟩

/-- **What is accepted as a sequence** is made of items that are accepted. -/
theorem exists_wrap_of_accept {shape : Shape} {τ : OptionType} {v w : Value}
    (h : accept (.sequence shape τ) v = .ok w) :
    ∃ vs zs, v.items? = some vs ∧ w = shape.wrap zs ∧ ∀ z ∈ zs, ∃ y ∈ vs, accept τ y = .ok z := by
  cases hv : v.items? with
  | none =>
    rw [accept, hv] at h
    cases h
  | some vs =>
    obtain ⟨zs, hzs, rfl⟩ := (accept_sequence_eq_ok_iff hv).mp h
    refine ⟨vs, zs, rfl, rfl, fun z hz => ?_⟩
    have hok : Except.ok z ∈ vs.map fun x => accept τ x >>= itemFor shape := by
      rw [hzs]
      exact List.mem_map_of_mem hz
    obtain ⟨y, hyvs, hy⟩ := List.mem_map.mp hok
    obtain ⟨z', hz', hi⟩ := bind_eq_ok_iff.mp hy
    obtain ⟨-, rfl⟩ := itemFor_eq_ok_iff.mp hi
    exact ⟨y, hyvs, hz'⟩

/-- It is made up of such items, if these have no parts. -/
theorem exists_items_of_accept {shape : Shape} {τ : OptionType} {v w : Value}
    (hleaf : ∀ {x y}, accept τ x = .ok y → y.isLeaf = true)
    (h : accept (.sequence shape τ) v = .ok w) :
    ∃ vs xs, v.items? = some vs ∧ w.items? = some xs ∧ w = shape.wrap xs ∧
      ∀ x ∈ xs, ∃ y ∈ vs, accept τ y = .ok x := by
  obtain ⟨vs, zs, hvs, rfl, hmem⟩ := exists_wrap_of_accept h
  have hleaf' : ∀ z ∈ zs, z.isLeaf = true := fun z hz => hleaf (hmem z hz).choose_spec.2
  obtain ⟨xs, hitems, hwrap, hsub⟩ := exists_items_of_wrap hleaf' shape
  exact ⟨vs, xs, hvs, hitems, hwrap, fun x hx => hmem x (hsub x hx)⟩

/-! ### Texts -/

theorem exists_text_of_accept {v w : Value} (h : accept .text v = .ok w) : ∃ s, .text s = w := by
  unfold accept at h
  obtain ⟨s, -, rfl⟩ := map_eq_ok_iff.mp h
  exact ⟨s, rfl⟩

theorem isLeaf_of_mem_texts {ts : List String} : ∀ x ∈ ts.map Value.text, x.isLeaf = true := by
  intro x hx
  obtain ⟨t, -, rfl⟩ := List.mem_map.mp hx
  rfl

theorem isStorable_of_mem_texts {ts : List String} : ∀ x ∈ ts.map Value.text, x.isStorable = true := by
  intro x hx
  obtain ⟨t, -, rfl⟩ := List.mem_map.mp hx
  rfl

theorem orderly_map_text (ts : List String) : Value.Orderly (ts.map .text) := by
  refine Value.orderly_texts fun x hx => ?_
  obtain ⟨t, -, rfl⟩ := List.mem_map.mp hx
  exact ⟨t, rfl⟩

/-- What is accepted as a sequence of texts is made up of texts. -/
theorem exists_texts_of_accept {shape : Shape} {v w : Value}
    (h : accept (.sequence shape .text) v = .ok w) :
    ∃ ts : List String, w.items? = some (ts.map .text) ∧ w = shape.wrap (ts.map .text) := by
  have hleaf : ∀ {x y}, accept .text x = .ok y → y.isLeaf = true := by
    intro x y hy
    obtain ⟨s, rfl⟩ := exists_text_of_accept hy
    rfl
  obtain ⟨_, xs, -, hitems, rfl, hxs⟩ := exists_items_of_accept hleaf h
  obtain ⟨ts, rfl⟩ : xs ∈ Set.range (List.map Value.text) := by
    rw [Set.range_list_map]
    intro x hx
    obtain ⟨y, -, hy⟩ := hxs x hx
    exact exists_text_of_accept hy
  exact ⟨ts, hitems, rfl⟩

/-- Texts are taken as they are. -/
theorem accept_texts (shape : Shape) (ts : List String) :
    (ts.map Value.text).map (fun x => accept .text x >>= itemFor shape) =
      (ts.map Value.text).map .ok :=
  List.map_congr_left fun x hx => by
    obtain ⟨t, -, rfl⟩ := List.mem_map.mp hx
    exact itemFor_leaf rfl shape

/-- A sequence of texts is accepted as it is. -/
theorem accept_wrap_texts {shape : Shape} {ts : List String}
    (hitems : (shape.wrap (ts.map .text)).items? = some (ts.map .text)) :
    accept (.sequence shape .text)
        (unflatten (.sequence shape .text) (shape.wrap (ts.map .text))) =
      .ok (shape.wrap (ts.map .text)) := by
  have hplain : unflatten (.sequence shape .text) (shape.wrap (ts.map .text)) =
      shape.wrap (ts.map .text) := by
    cases shape <;> rfl
  rw [hplain, accept_sequence_eq_ok_iff hitems]
  exact ⟨_, accept_texts shape ts, rfl⟩

/-- **A sequence of texts is restored exactly if all of them are pieces.** -/
theorem restores_texts_iff {shape : Shape} {ts : List String}
    (hitems : (shape.wrap (ts.map .text)).items? = some (ts.map .text)) :
    Restores (.sequence shape .text) (shape.wrap (ts.map .text)) ↔ ∀ t ∈ ts, Piece t := by
  constructor
  · rintro ⟨s, -, h⟩
    obtain ⟨xs, hxs, hwrap⟩ := (accept_sequence_eq_ok_iff rfl).mp h
    -- the texts read are those between the commas
    have hread : xs = (pieces s).map .text := by
      rw [accept_texts] at hxs
      exact (List.map_injective_iff.mpr (fun _ _ => Except.ok.inj) hxs).symm
    obtain ⟨ys, hys, -, hsub⟩ := exists_items_of_wrap (hread ▸ isLeaf_of_mem_texts) shape
    rw [hwrap, hitems] at hys
    obtain rfl := Option.some.inj hys
    intro t ht
    have hmem := hsub _ (List.mem_map_of_mem ht)
    rw [hread] at hmem
    obtain ⟨p, hp, he⟩ := List.mem_map.mp hmem
    cases he
    exact piece_of_mem_pieces hp
  · intro h
    refine restores_wrap isLeaf_of_mem_texts isStorable_of_mem_texts (fun _ => orderly_map_text ts) ?_ ?_
    · intro x hx
      obtain ⟨t, ht, rfl⟩ := List.mem_map.mp hx
      exact h t ht
    · intro x hx
      obtain ⟨t, -, rfl⟩ := List.mem_map.mp hx
      rfl

end ScanJobs.OptionType
