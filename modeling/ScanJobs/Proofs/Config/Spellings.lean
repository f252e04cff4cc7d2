import ScanJobs.Config.Flat
import ScanJobs.Proofs.Fallible
import ScanJobs.Proofs.Table
import ScanJobs.Proofs.Text.Solid

/-! # Flat configurations and the spellings of a key

Keys that differ only in the blanks at their ends are spellings of one key. A flat configuration trims a
key when a text is stored and at no other time, so what is stored stands under the trimmed spelling
(`Trimmed`). There it stays whatever is called, until a call that does not fail names the key in any
spelling (`exists_after_agreeAt`). A configuration is thus a map for the keys that are trimmed; under
another spelling nothing is ever found and nothing is removed (`mapsAt_after`). -/

namespace ScanJobs.Config

open Text

/-! ### Values that are texts -/

theorem text?_eq_some_iff {v : Value} {s : String} :
    v.text? = some s ↔ v = .text s ∨ ∃ owner name, v = .member ⟨owner, name, .text s, true⟩ := by
  constructor
  · intro h
    unfold Value.text? at h
    split at h
    · cases h
      exact .inl rfl
    · next owner name _ =>
      cases h
      exact .inr ⟨owner, name, rfl⟩
    · cases h
  · rintro (rfl | ⟨owner, name, rfl⟩)
    · rfl
    · rfl

/-- What is stored for a value is the value. -/
theorem FlatText.ofValue?_eq_some {v : Value} {t : FlatText} (h : FlatText.ofValue? v = some t) :
    t.value = v := by
  unfold FlatText.ofValue? at h
  split at h
  · cases h
    rfl
  · cases h
    rfl
  · cases h

theorem keyText?_of_text? {v : Value} {s : String} (h : v.text? = some s) :
    v.keyText? = .ok (some s) := by
  obtain rfl | ⟨owner, name, rfl⟩ := text?_eq_some_iff.mp h
  · rfl
  · rfl

theorem text?_of_keyText? {v : Value} {k? : Option String} (h : v.keyText? = .ok k?) :
    k? = v.text? := by
  obtain ⟨w, hw, rfl⟩ := map_eq_ok_iff.mp h
  unfold Value.asKey at hw
  cases hu : v.unhashable? with
  | none =>
    rw [hu] at hw
    cases hw
    rfl
  | some u =>
    rw [hu] at hw
    cases hw

namespace Flat

/-- The value that is handed out under exactly this key. -/
def answer? (c : Flat) (key : String) : Option Value :=
  (c.stored? key).map FlatText.value

/-- **No key is blank or has blanks at its ends.** -/
def Trimmed (c : Flat) : Prop :=
  ∀ k t, c.stored? k = some t → Solid k

/-- **The configurations tell the same** under every spelling of the key. -/
def AgreeAt (key : String) (c c' : Flat) : Prop :=
  ∀ k, strip k = strip key → c'.stored? k = c.stored? k

theorem agreeAt_refl (key : String) (c : Flat) : AgreeAt key c c :=
  fun _ _ => rfl

theorem AgreeAt.trans {key : String} {c c' c'' : Flat} (h : AgreeAt key c c')
    (h' : AgreeAt key c' c'') : AgreeAt key c c'' :=
  fun k hk => (h' k hk).trans (h k hk)

theorem stored?_unset (c : Flat) (key k : String) :
    (c.unset key).stored? k = if key = k then none else c.stored? k :=
  Table.get?_erase c.values key k

theorem contains_eq_isSome (c : Flat) (key : String) : c.contains key = (c.answer? key).isSome := by
  rw [answer?, Option.isSome_map]
  rfl

theorem setValue_of_text? (c : Flat) {key value : Value} {k : String} {t : FlatText}
    (hkey : key.text? = some k) (hblank : isBlank k = false)
    (hvalue : FlatText.ofValue? value = some t) : c.setValue key value = .ok (c.store k t) := by
  simp only [setValue, hkey, hblank, hvalue, Bool.false_eq_true, if_false]

/-- **A text is stored** under a text that is not blank. -/
theorem setValue_eq_ok_iff {c c' : Flat} {key value : Value} :
    c.setValue key value = .ok c' ↔ ∃ k t, key.text? = some k ∧ isBlank k = false ∧
      FlatText.ofValue? value = some t ∧ c' = c.store k t := by
  constructor
  · intro h
    unfold setValue at h
    split at h
    · cases h
    · next k hkey =>
      split at h
      · cases h
      · next hblank =>
        split at h
        · cases h
        · next t hvalue =>
          cases h
          exact ⟨k, t, hkey, Bool.not_eq_true _ ▸ hblank, hvalue, rfl⟩
  · rintro ⟨k, t, hkey, hblank, hvalue, rfl⟩
    exact setValue_of_text? c hkey hblank hvalue

/-- Removes what stands under a value, if it can be a key. -/
def unsetValue (c : Flat) (key : Value) : Except Failure Flat :=
  key.keyText?.map fun k? => (k?.map c.unset).getD c

theorem unsetValue_of_text? (c : Flat) {key : Value} {k : String} (h : key.text? = some k) :
    c.unsetValue key = .ok (c.unset k) := by
  rw [unsetValue, keyText?_of_text? h]
  rfl

theorem eq_of_unsetValue {c c' : Flat} {key : Value} (h : c.unsetValue key = .ok c') :
    (∃ k, key.text? = some k ∧ c' = c.unset k) ∨ key.text? = none ∧ c' = c := by
  obtain ⟨k?, hk, rfl⟩ := map_eq_ok_iff.mp h
  obtain rfl := text?_of_keyText? hk
  cases hkey : key.text? with
  | none => exact .inr ⟨rfl, rfl⟩
  | some k => exact .inl ⟨k, rfl, rfl⟩

/-! ### Keys stay trimmed -/

theorem trimmed_empty : empty.Trimmed :=
  nofun

theorem Trimmed.store {c : Flat} (h : c.Trimmed) {key : String} (hkey : isBlank key = false)
    (t : FlatText) : (c.store key t).Trimmed := by
  intro k u hk
  rw [stored?_store] at hk
  split at hk
  · next hs => exact hs ▸ solid_strip hkey
  · exact h k u hk

theorem Trimmed.unset {c : Flat} (h : c.Trimmed) (key : String) : (c.unset key).Trimmed := by
  intro k t hk
  rw [stored?_unset] at hk
  split at hk
  · cases hk
  · exact h k t hk

theorem Trimmed.copy {c : Flat} (h : c.Trimmed) : c.copy.Trimmed := by
  intro k t hk
  rw [stored?_copy] at hk
  obtain ⟨u, hu, -⟩ := Option.map_eq_some_iff.mp hk
  exact h k u hu

theorem Trimmed.setValue {c c' : Flat} (h : c.Trimmed) {key value : Value}
    (hs : c.setValue key value = .ok c') : c'.Trimmed := by
  obtain ⟨k, t, -, hblank, -, rfl⟩ := setValue_eq_ok_iff.mp hs
  exact h.store hblank t

theorem Trimmed.unsetValue {c c' : Flat} (h : c.Trimmed) {key : Value}
    (hs : c.unsetValue key = .ok c') : c'.Trimmed := by
  obtain ⟨k, -, rfl⟩ | ⟨-, rfl⟩ := eq_of_unsetValue hs
  · exact h.unset k
  · exact h

theorem Trimmed.of_foldlM {es : List (Value × Value)} {c c' : Flat} (h : c.Trimmed)
    (hes : es.foldlM addEntry c = .ok c') : c'.Trimmed := by
  induction es generalizing c with
  | nil =>
    cases hes
    exact h
  | cons e es ih =>
    rw [List.foldlM_cons] at hes
    obtain ⟨c₁, hadd, hrest⟩ := bind_eq_ok_iff.mp hes
    obtain ⟨t, -, hset⟩ := bind_eq_ok_iff.mp hadd
    exact ih (h.setValue hset) hrest

theorem trimmed_of_ofValue {v : Value} {c : Flat} (h : ofValue v = .ok c) : c.Trimmed := by
  obtain ⟨es, -, hes⟩ := bind_eq_ok_iff.mp h
  exact trimmed_empty.of_foldlM hes

/-- Nothing is found under a key that is not trimmed. -/
theorem Trimmed.answer?_eq {c : Flat} (h : c.Trimmed) (key : String) :
    c.answer? key = if strip key = key then c.answer? (strip key) else none := by
  split
  · next hs => rw [hs]
  · next hs =>
    rw [answer?, Option.map_eq_none_iff]
    cases hk : c.stored? key with
    | none => rfl
    | some t => exact absurd (h key t hk).strip_eq hs

/-- What is stored can be written: it spells no integer. -/
theorem textOf_value (t : FlatText) : textOf t.value = .ok t.value.plain := by
  cases t <;> rfl

/-- **A copy is what is made of the texts of the original**, since its keys are trimmed already. -/
theorem Trimmed.ofEntries_eq_copy {c : Flat} (h : c.Trimmed) :
    ofEntries (c.values.entries.map fun e => (.text e.1, e.2.value)) = .ok c.copy := by
  have hall : ∀ es : List (String × FlatText), (∀ e ∈ es, Solid e.1) → ∀ d : Flat,
      (es.map fun e => (Value.text e.1, e.2.value)).foldlM addEntry d =
        .ok ⟨d.values.insertAll (es.map fun e => (e.1, e.2.spelledOut))⟩ := by
    intro es
    induction es with
    | nil => exact fun _ _ => rfl
    | cons e es ih =>
      intro hsolid d
      have hkey := hsolid e (List.mem_cons_self ..)
      have hstore : d.store e.1 e.2.spelledOut = ⟨d.values.insert e.1 e.2.spelledOut⟩ := by
        rw [Flat.store, hkey.strip_eq]
      have hset : d.setValue (.text e.1) (.text e.2.value.plain) = .ok (d.store e.1 e.2.spelledOut) :=
        setValue_of_text? d rfl hkey.isBlank_eq rfl
      have hadd : addEntry d (.text e.1, e.2.value) = .ok (d.store e.1 e.2.spelledOut) := by
        rw [addEntry, textOf_value]
        exact hset
      rw [List.map_cons, List.foldlM_cons, hadd, hstore]
      exact ih (fun e' he' => hsolid e' (List.mem_cons_of_mem _ he')) _
  have hentries := hall c.values.entries (fun e he => h e.1 e.2 (Table.get?_eq_some_iff.mpr he)) empty
  have hcopy : Table.ofList (c.values.entries.map fun e => (e.1, e.2.spelledOut)) = c.copy.values :=
    Table.ofList_entries c.copy.values
  exact hentries.trans (congrArg (fun t => Except.ok (Flat.mk t)) hcopy)

end Flat

/-! ### Calls -/

/-- A call on one of the configurations in hand. A copy joins them at the end. -/
inductive FlatCall where
  | set (i : Nat) (key value : Value)
  | unset (i : Nat) (key : Value)
  | copy (i : Nat)

namespace FlatCall

/-- Puts a changed configuration in the place of the `i`-th. -/
def change (i : Nat) (f : Flat → Except Failure Flat) (cs : List Flat) : Except Failure (List Flat) :=
  (f (cs.getD i .empty)).map (cs.set i)

/-- What a call makes of the configurations. -/
def run : FlatCall → List Flat → Except Failure (List Flat)
  | .set i key value, cs => change i (fun c => c.setValue key value) cs
  | .unset i key, cs => change i (fun c => c.unsetValue key) cs
  | .copy i, cs => .ok (cs ++ [(cs.getD i .empty).copy])

/-- The configurations after one call, which may have failed. -/
def next (call : FlatCall) (cs : List Flat) : List Flat :=
  match call.run cs with
  | .ok cs' => cs'
  | .error _ => cs

/-- **The configurations after calls**, each of which may have failed. -/
def after (calls : List FlatCall) (cs : List Flat) : List Flat :=
  calls.foldl (fun cs call => call.next cs) cs

/-- The call fails, whatever is stored. -/
def Fails (call : FlatCall) : Prop :=
  ∀ cs, ∃ e, call.run cs = .error e

/-- **The call stores something under the key** of the `i`-th configuration, in any spelling. -/
def Stores (i : Nat) (key : String) : FlatCall → Prop
  | .set j key' _ => j = i ∧ ∃ k, key'.text? = some k ∧ strip k = strip key
  | .unset .. => False
  | .copy _ => False

/-- **The call names the key** of the `i`-th configuration, in any spelling. -/
def Names (i : Nat) (key : String) : FlatCall → Prop
  | .set j key' _ => j = i ∧ ∃ k, key'.text? = some k ∧ strip k = strip key
  | .unset j key' => j = i ∧ ∃ k, key'.text? = some k ∧ strip k = strip key
  | .copy _ => False

theorem next_of_ok {call : FlatCall} {cs cs' : List Flat} (h : call.run cs = .ok cs') :
    call.next cs = cs' := by
  rw [next, h]

theorem next_of_error {call : FlatCall} {cs : List Flat} {e : Failure} (h : call.run cs = .error e) :
    call.next cs = cs := by
  rw [next, h]

/-- Whether a call fails does not depend on what is stored. -/
theorem fails_of_run_error {call : FlatCall} {cs : List Flat} {e : Failure}
    (h : call.run cs = .error e) : call.Fails := by
  intro cs'
  cases call with
  | copy i => cases h
  | set i key value =>
    refine exists_error_iff.mpr fun cs'' hok => ?_
    obtain ⟨c, hc, -⟩ := map_eq_ok_iff.mp hok
    obtain ⟨k, t, hkey, hblank, hvalue, -⟩ := Flat.setValue_eq_ok_iff.mp hc
    have hsame := (cs.getD i .empty).setValue_of_text? hkey hblank hvalue
    cases hsame.symm.trans (map_eq_error_iff.mp h)
  | unset i key =>
    have hkey : key.keyText? = .error e := map_eq_error_iff.mp (map_eq_error_iff.mp h)
    refine ⟨e, map_eq_error_iff.mpr (map_eq_error_iff.mpr hkey)⟩

theorem not_fails_set (i : Nat) {key value : Value} {k : String} {t : FlatText}
    (hkey : key.text? = some k) (hblank : isBlank k = false)
    (hvalue : FlatText.ofValue? value = some t) : ¬ (set i key value).Fails := by
  intro h
  obtain ⟨e, he⟩ := h []
  have hok := Flat.empty.setValue_of_text? hkey hblank hvalue
  cases hok.symm.trans (map_eq_error_iff.mp he)

theorem not_fails_unset (i : Nat) {key : Value} {k : String} (hkey : key.text? = some k) :
    ¬ (unset i key).Fails := by
  intro h
  obtain ⟨e, he⟩ := h []
  cases (Flat.empty.unsetValue_of_text? hkey).symm.trans (map_eq_error_iff.mp he)

/-! ### One call -/

/-- **What a call does to the `i`-th configuration**: it stores something, removes something, or leaves
everything as it was, which it does if it names no key of the configuration, or fails. -/
inductive Does (i : Nat) : FlatCall → Flat → Flat → Prop where
  | stores (key value : Value) (k : String) (t : FlatText) (c : Flat) (hkey : key.text? = some k)
      (hblank : isBlank k = false) (hvalue : FlatText.ofValue? value = some t) :
      Does i (.set i key value) c (c.store k t)
  | removes (key : Value) (k : String) (c : Flat) (hkey : key.text? = some k) :
      Does i (.unset i key) c (c.unset k)
  | passes (call : FlatCall) (c : Flat) (h : ∀ key, call.Names i key → call.Fails) :
      Does i call c c

theorem getElem?_change {i j : Nat} {f : Flat → Except Failure Flat} {cs cs' : List Flat} {c : Flat}
    (h : change j f cs = .ok cs') (hc : cs[i]? = some c) :
    (j = i ∧ ∃ c', f c = .ok c' ∧ cs'[i]? = some c') ∨ j ≠ i ∧ cs'[i]? = some c := by
  obtain ⟨c', hc', rfl⟩ := map_eq_ok_iff.mp h
  by_cases hji : j = i
  · subst hji
    rw [List.getD_eq_getElem?_getD, hc] at hc'
    obtain ⟨hlt, -⟩ := List.getElem?_eq_some_iff.mp hc
    exact .inl ⟨rfl, c', hc', List.getElem?_set_self hlt⟩
  · exact .inr ⟨hji, (List.getElem?_set_ne hji).trans hc⟩

theorem exists_next_does (call : FlatCall) {cs : List Flat} {i : Nat} {c : Flat}
    (hc : cs[i]? = some c) : ∃ c', (call.next cs)[i]? = some c' ∧ Does i call c c' := by
  cases hrun : call.run cs with
  | error e =>
    rw [next_of_error hrun]
    exact ⟨c, hc, .passes call c fun _ _ => fails_of_run_error hrun⟩
  | ok cs' =>
    rw [next_of_ok hrun]
    cases call with
    | copy j =>
      cases hrun
      obtain ⟨hlt, -⟩ := List.getElem?_eq_some_iff.mp hc
      exact ⟨c, (List.getElem?_append_left hlt).trans hc, .passes _ c fun _ h => h.elim⟩
    | set j key value =>
      have hchange : change j (fun c => c.setValue key value) cs = .ok cs' := hrun
      obtain ⟨rfl, c', hset, hc'⟩ | ⟨hne, hc'⟩ := getElem?_change hchange hc
      · obtain ⟨k, t, hkey, hblank, hvalue, rfl⟩ := Flat.setValue_eq_ok_iff.mp hset
        exact ⟨_, hc', .stores key value k t c hkey hblank hvalue⟩
      · exact ⟨c, hc', .passes _ c fun _ h => absurd h.1 hne⟩
    | unset j key =>
      have hchange : change j (fun c => c.unsetValue key) cs = .ok cs' := hrun
      obtain ⟨rfl, c', hunset, hc'⟩ | ⟨hne, hc'⟩ := getElem?_change hchange hc
      · obtain ⟨k, hkey, rfl⟩ | ⟨hkey, rfl⟩ := Flat.eq_of_unsetValue hunset
        · exact ⟨_, hc', .removes key k c hkey⟩
        · refine ⟨_, hc', .passes _ _ fun _ h => ?_⟩
          obtain ⟨-, k, hk, -⟩ := h
          cases hkey.symm.trans hk
      · exact ⟨c, hc', .passes _ c fun _ h => absurd h.1 hne⟩

/-- **A call that does not name the key** changes nothing for it, and neither does one that fails. -/
theorem Does.agreeAt {i : Nat} {call : FlatCall} {c c' : Flat} (h : Does i call c c') {key : String}
    (hcall : call.Names i key → call.Fails) : c.AgreeAt key c' := by
  cases h with
  | passes => exact Flat.agreeAt_refl key c
  | stores key' value k t _ hkey hblank hvalue =>
    intro spelled hspelled
    rw [Flat.stored?_store, if_neg]
    rintro rfl
    rw [strip_strip] at hspelled
    exact not_fails_set i hkey hblank hvalue (hcall ⟨rfl, k, hkey, hspelled⟩)
  | removes key' k _ hkey =>
    intro spelled hspelled
    rw [Flat.stored?_unset, if_neg]
    rintro rfl
    exact not_fails_unset i hkey (hcall ⟨rfl, k, hkey, hspelled⟩)

/-- What is absent is not brought in but by a call that stores it. -/
theorem Does.stored?_eq_none {i : Nat} {call : FlatCall} {c c' : Flat} (h : Does i call c c')
    {key : String} (hcall : call.Stores i key → call.Fails) (hc : c.stored? key = none) :
    c'.stored? key = none := by
  cases h with
  | passes => exact hc
  | stores key' value k t _ hkey hblank hvalue =>
    rw [Flat.stored?_store, if_neg]
    · exact hc
    · rintro rfl
      exact not_fails_set i hkey hblank hvalue (hcall ⟨rfl, k, hkey, strip_strip.symm⟩)
  | removes key' k _ hkey =>
    rw [Flat.stored?_unset]
    split
    · rfl
    · exact hc

/-- **Keys stay trimmed**, also in copies. -/
theorem trimmed_next (call : FlatCall) {cs : List Flat} (h : ∀ c ∈ cs, c.Trimmed) :
    ∀ c ∈ call.next cs, c.Trimmed := by
  have hget : ∀ i, (cs.getD i .empty).Trimmed := by
    intro i
    rw [List.getD_eq_getElem?_getD]
    cases hi : cs[i]? with
    | none => exact Flat.trimmed_empty
    | some c => exact h c (List.mem_of_getElem? hi)
  have hset : ∀ i c, c.Trimmed → ∀ c' ∈ cs.set i c, c'.Trimmed := by
    intro i c hc c' hc'
    obtain hc' | rfl := List.mem_or_eq_of_mem_set hc'
    · exact h c' hc'
    · exact hc
  cases hrun : call.run cs with
  | error e => rwa [next_of_error hrun]
  | ok cs' =>
    rw [next_of_ok hrun]
    cases call with
    | copy i =>
      cases hrun
      intro c hc
      obtain hc | hc := List.mem_append.mp hc
      · exact h c hc
      · obtain rfl := List.mem_singleton.mp hc
        exact (hget i).copy
    | set i key value =>
      obtain ⟨c, hc, rfl⟩ := map_eq_ok_iff.mp hrun
      exact hset i c ((hget i).setValue hc)
    | unset i key =>
      obtain ⟨c, hc, rfl⟩ := map_eq_ok_iff.mp hrun
      exact hset i c ((hget i).unsetValue hc)

/-! ### Calls one after the other -/

theorem trimmed_after (calls : List FlatCall) {cs : List Flat} (h : ∀ c ∈ cs, c.Trimmed) :
    ∀ c ∈ after calls cs, c.Trimmed := by
  induction calls generalizing cs with
  | nil => exact h
  | cons call calls ih => exact ih (trimmed_next call h)

/-- **Calls that do not name the key**, or fail, change nothing for it. -/
theorem exists_after_agreeAt {calls : List FlatCall} {i : Nat} {key : String}
    (hcalls : ∀ call ∈ calls, call.Names i key → call.Fails) {cs : List Flat} {c : Flat}
    (hc : cs[i]? = some c) : ∃ c', (after calls cs)[i]? = some c' ∧ c.AgreeAt key c' := by
  induction calls generalizing cs c with
  | nil => exact ⟨c, hc, Flat.agreeAt_refl key c⟩
  | cons call calls ih =>
    obtain ⟨c₁, hc₁, hdoes⟩ := exists_next_does call hc
    obtain ⟨c', hc', hrest⟩ := ih (fun call' h => hcalls call' (List.mem_cons_of_mem _ h)) hc₁
    exact ⟨c', hc', (hdoes.agreeAt (hcalls call (List.mem_cons_self ..))).trans hrest⟩

/-- Calls that do not store the key, or fail, do not bring it in. -/
theorem exists_after_absent {calls : List FlatCall} {i : Nat} {key : String}
    (hcalls : ∀ call ∈ calls, call.Stores i key → call.Fails) {cs : List Flat} {c : Flat}
    (hc : cs[i]? = some c) (habsent : c.stored? key = none) :
    ∃ c', (after calls cs)[i]? = some c' ∧ c'.stored? key = none := by
  induction calls generalizing cs c with
  | nil => exact ⟨c, hc, habsent⟩
  | cons call calls ih =>
    obtain ⟨c₁, hc₁, hdoes⟩ := exists_next_does call hc
    have habsent₁ := hdoes.stored?_eq_none (hcalls call (List.mem_cons_self ..)) habsent
    exact ih (fun call' h => hcalls call' (List.mem_cons_of_mem _ h)) hc₁ habsent₁

theorem getElem?_next_set {cs : List Flat} {i : Nat} {c c₁ : Flat} {key value : Value}
    (hc : cs[i]? = some c) (hset : c.setValue key value = .ok c₁) :
    ((set i key value).next cs)[i]? = some c₁ := by
  obtain ⟨k, t, hkey, hblank, hvalue, rfl⟩ := Flat.setValue_eq_ok_iff.mp hset
  obtain ⟨c', hc', hdoes⟩ := exists_next_does (set i key value) hc
  cases hdoes with
  | stores _ _ k' t' _ hkey' _ hvalue' =>
    cases hkey.symm.trans hkey'
    cases hvalue.symm.trans hvalue'
    exact hc'
  | passes _ _ h => exact absurd (h k ⟨rfl, k, hkey, rfl⟩) (not_fails_set i hkey hblank hvalue)

theorem getElem?_next_unset {cs : List Flat} {i : Nat} {c : Flat} {key : Value} {k : String}
    (hc : cs[i]? = some c) (hkey : key.text? = some k) :
    ((unset i key).next cs)[i]? = some (c.unset k) := by
  obtain ⟨c', hc', hdoes⟩ := exists_next_does (unset i key) hc
  cases hdoes with
  | removes _ k' _ hkey' =>
    cases hkey.symm.trans hkey'
    exact hc'
  | passes _ _ h => exact absurd (h k ⟨rfl, k, hkey, rfl⟩) (not_fails_unset i hkey)

/-! ### What a key leads to -/

section Trimmed

variable {cs : List Flat} {i : Nat} {c : Flat} {key : String} {key' : Value} {later : List FlatCall}

theorem exists_after_set (htrimmed : ∀ c ∈ cs, c.Trimmed) (hc : cs[i]? = some c) {c₁ : Flat}
    {value : Value} (hkey : key'.text? = some key) (hset : c.setValue key' value = .ok c₁)
    (hlater : ∀ call ∈ later, call.Names i key → call.Fails) :
    ∃ c', (after (set i key' value :: later) cs)[i]? = some c' ∧
      c'.answer? (strip key) = some value ∧
      (c'.answer? key = if strip key = key then some value else none) ∧
      (c'.contains key = true ↔ strip key = key) := by
  obtain ⟨c', hc', hagree⟩ := exists_after_agreeAt hlater (getElem?_next_set hc hset)
  have htrimmed' : c'.Trimmed :=
    trimmed_after later (trimmed_next _ htrimmed) c' (List.mem_of_getElem? hc')
  obtain ⟨k, t, hk, -, hvalue, rfl⟩ := Flat.setValue_eq_ok_iff.mp hset
  cases hkey.symm.trans hk
  have hfound : c'.answer? (strip key) = some value := by
    rw [Flat.answer?, hagree (strip key) strip_strip, Flat.stored?_store, if_pos rfl, Option.map_some,
      FlatText.ofValue?_eq_some hvalue]
  have hgiven : c'.answer? key = if strip key = key then some value else none := by
    rw [htrimmed'.answer?_eq, hfound]
  refine ⟨c', hc', hfound, hgiven, ?_⟩
  rw [Flat.contains_eq_isSome, hgiven]
  split <;> simp [*]

theorem exists_after_unset (hc : cs[i]? = some c) (hkey : key'.text? = some key)
    (hlater : ∀ call ∈ later, call.Stores i key → call.Fails) :
    ∃ c', (after (unset i key' :: later) cs)[i]? = some c' ∧
      c'.answer? key = none ∧ c'.contains key = false := by
  have hgone : (c.unset key).stored? key = none := by rw [Flat.stored?_unset, if_pos rfl]
  obtain ⟨c', hc', habsent⟩ := exists_after_absent hlater (getElem?_next_unset hc hkey) hgone
  have hanswer : c'.answer? key = none := by rw [Flat.answer?, habsent, Option.map_none]
  exact ⟨c', hc', hanswer, by rw [Flat.contains_eq_isSome, hanswer, Option.isSome_none]⟩

theorem exists_after_unset_untrimmed (htrimmed : c.Trimmed) (hc : cs[i]? = some c)
    (hkey : key'.text? = some key) (hne : strip key ≠ key)
    (hlater : ∀ call ∈ later, call.Names i key → call.Fails) :
    ∃ c', (after (unset i key' :: later) cs)[i]? = some c' ∧ c.AgreeAt key c' := by
  obtain ⟨c', hc', hagree⟩ := exists_after_agreeAt hlater (getElem?_next_unset hc hkey)
  refine ⟨c', hc', Flat.AgreeAt.trans (fun k hk => ?_) hagree⟩
  rw [Flat.stored?_unset]
  split
  · next hkk =>
    subst hkk
    cases habsent : c.stored? key with
    | none => rfl
    | some t => exact absurd (htrimmed key t habsent).strip_eq hne
  · rfl

end Trimmed

/-- **How far the `i`-th configuration is a map**, told for one key: as it should be if the key is
trimmed. -/
structure MapsAt (cs : List Flat) (i : Nat) (key : String) : Prop where
  /-- What was stored is found under the trimmed key until a call that does not fail names the key. The
  key that was given leads to it exactly if it is trimmed, and is not there otherwise. -/
  stored : ∀ {c c₁ : Flat} {key' value : Value} {later : List FlatCall},
    cs[i]? = some c → key'.text? = some key → c.setValue key' value = .ok c₁ →
    (∀ call ∈ later, call.Names i key → call.Fails) →
    ∃ c', (after (set i key' value :: later) cs)[i]? = some c' ∧
      c'.answer? (strip key) = some value ∧
      (c'.answer? key = if strip key = key then some value else none) ∧
      (c'.contains key = true ↔ strip key = key)
  /-- What was removed is not found until it is stored again. -/
  removed : ∀ {c : Flat} {key' : Value} {later : List FlatCall},
    cs[i]? = some c → key'.text? = some key →
    (∀ call ∈ later, call.Stores i key → call.Fails) →
    ∃ c', (after (unset i key' :: later) cs)[i]? = some c' ∧
      c'.answer? key = none ∧ c'.contains key = false
  /-- To remove a key that is not trimmed removes nothing. -/
  kept : ∀ {c : Flat} {key' : Value} {later : List FlatCall},
    cs[i]? = some c → key'.text? = some key → strip key ≠ key →
    (∀ call ∈ later, call.Names i key → call.Fails) →
    ∃ c', (after (unset i key' :: later) cs)[i]? = some c' ∧ c.AgreeAt key c'
  /-- Calls on other keys or other configurations, and calls that fail, change nothing. -/
  others : ∀ {c : Flat} {calls : List FlatCall},
    cs[i]? = some c → (∀ call ∈ calls, call.Names i key → call.Fails) →
    ∃ c', (after calls cs)[i]? = some c' ∧ c.AgreeAt key c'

/-- **Flat configurations are maps for trimmed keys**, after any calls on one that was made of a mapping
and on its copies. -/
theorem mapsAt_after {v : Value} {c₀ : Flat} (h : Flat.ofValue v = .ok c₀) (calls : List FlatCall)
    (i : Nat) (key : String) : MapsAt (after calls [c₀]) i key := by
  have hfirst : ∀ c ∈ [c₀], c.Trimmed := by
    intro c hc
    obtain rfl := List.mem_singleton.mp hc
    exact Flat.trimmed_of_ofValue h
  have htrimmed := trimmed_after calls hfirst
  exact
    { stored := fun hc hkey hset hlater => exists_after_set htrimmed hc hkey hset hlater
      removed := fun hc hkey hlater => exists_after_unset hc hkey hlater
      kept := fun {c _ _} hc hkey hne hlater =>
        exists_after_unset_untrimmed (htrimmed c (List.mem_of_getElem? hc)) hc hkey hne hlater
      others := fun hc hcalls => exists_after_agreeAt hcalls hc }

/-- A text stored under a key with blanks at its ends is not found under this key, whatever becomes of
other keys and of copies. -/
theorem key_with_blanks_not_found :
    ∃ c₀, Flat.ofValue (.map [(.text " b", .int 1)]) = .ok c₀ ∧ c₀.answer? "b" = some (.text "1") ∧
      MapsAt (after [.copy 0] [c₀]) 0 " a " ∧
      ∃ c', (after [.copy 0, .set 0 (.text " a ") (.text "v"), .set 0 (.text "b") (.text "w"),
          .unset 1 (.text "a"), .set 0 (.text "a") (.int 2)] [c₀])[0]? = some c' ∧
        c'.answer? "a" = some (.text "v") ∧ c'.answer? " a " = none ∧ c'.contains " a " = false := by
  have h : Flat.ofValue (.map [(.text " b", .int 1)]) = .ok (Flat.empty.put "b" "1") := rfl
  have hmaps := mapsAt_after h [.copy 0] 0 " a "
  refine ⟨_, h, rfl, hmaps, ?_⟩
  have hset : (Flat.empty.put "b" "1").setValue (.text " a ") (.text "v") =
      .ok ((Flat.empty.put "b" "1").store " a " (.written "v")) := rfl
  have hlater : ∀ call ∈ [.set 0 (.text "b") (.text "w"), .unset 1 (.text "a"),
      FlatCall.set 0 (.text "a") (.int 2)], call.Names 0 " a " → call.Fails := by
    intro call hcall hnames
    simp only [List.mem_cons, List.not_mem_nil, or_false] at hcall
    obtain rfl | rfl | rfl := hcall
    · obtain ⟨-, k, hk, hkey⟩ := hnames
      cases hk
      exact absurd hkey (by decide)
    · cases hnames.1
    · exact fun cs => ⟨_, rfl⟩
  obtain ⟨c', hc', hfound, hgiven, hthere⟩ := hmaps.stored rfl rfl hset hlater
  refine ⟨c', hc', hfound, ?_, ?_⟩
  · rwa [if_neg (by decide)] at hgiven
  · rw [Bool.eq_false_iff, ne_eq, hthere]
    decide

end FlatCall

end ScanJobs.Config
