import ScanJobs.Engine.LocalJob
import ScanJobs.Proofs.Counters

/-! # Results of tasks

A job adds up the counters of the tasks that succeeded (`sumCounters_eq`), and tells of those that failed
in the order of their splits (`mem_failures`, `pairwise_failures`), which leaves one list of them
(`eq_failures`). -/

namespace ScanJobs.Engine.LocalJob

open Counters

variable {ε : Type}

/-! ### Tasks that succeeded -/

/-- The counters of the tasks that succeeded. -/
def succeeded (results : List (Except ε Counters)) : List Counters :=
  results.filterMap Except.toOption

theorem mem_succeeded {results : List (Except ε Counters)} {d : Counters} :
    d ∈ succeeded results ↔ .ok d ∈ results := by
  unfold succeeded
  rw [List.mem_filterMap]
  constructor
  · rintro ⟨result, hmem, hd⟩
    cases result with
    | error f => cases hd
    | ok d' =>
      obtain rfl := Option.some.inj hd
      exact hmem
  · exact fun h => ⟨_, h, rfl⟩

theorem succeeded_map_ok (ds : List Counters) :
    succeeded (ds.map (.ok : Counters → Except ε Counters)) = ds := by
  rw [succeeded, List.filterMap_map]
  exact List.filterMap_some

/-- How failures are told is not seen in the counters. -/
theorem succeeded_mapError {ε' : Type} (f : ε → ε') (results : List (Except ε Counters)) :
    succeeded (results.map fun r => r.mapError f) = succeeded results := by
  rw [succeeded, List.filterMap_map]
  refine List.filterMap_congr fun r _ => ?_
  cases r <;> rfl

/-- **The counters of the tasks that succeeded are added up**, and no others. -/
theorem sumCounters_eq {results : List TaskResult} (h : ∀ d ∈ succeeded results, d.Named) :
    sumCounters results = addAll ((succeeded results).flatMap listed) Counters.empty := by
  unfold sumCounters
  -- the same from any counters on, by induction on the results that are left
  generalize Counters.empty = c
  induction results generalizing c with
  | nil => rfl
  | cons r results ih =>
    rw [List.foldl_cons]
    cases r with
    | error t => exact ih h c
    | ok d =>
      have hsucceeded : succeeded (.ok d :: results) = d :: succeeded results := rfl
      rw [hsucceeded] at h ⊢
      have hmerge := merge_eq (h d (List.mem_cons_self ..)) c
      have hrest := ih (fun d' hd' => h d' (List.mem_cons_of_mem _ hd'))
        ((merge d.toGroups).on c).2
      rw [List.flatMap_cons, addAll_append]
      refine hrest.trans ?_
      rw [hmerge]

/-- Counters in the same groups are added up in them. -/
theorem adds_sumCounters {groups : List String} (hgroups : ∀ g ∈ groups, Text.isBlank g = false)
    {ds : List Counters} (hds : ∀ d ∈ ds, Within groups d) :
    Adds groups (fun g n => (ds.map fun d => d.value g n).sum) Counters.empty
      (sumCounters (ds.map .ok)) := by
  have hsum : sumCounters (ds.map .ok) = addAll (ds.flatMap listed) Counters.empty := by
    rw [sumCounters_eq, succeeded_map_ok]
    rw [succeeded_map_ok]
    exact fun d hd => (hds d hd).named hgroups
  have hadds : Adds groups (sumOf (ds.flatMap listed)) Counters.empty
      (addAll (ds.flatMap listed) Counters.empty) := by
    refine adds_addAll (fun ⟨g, n, k⟩ he => ?_) _
    obtain ⟨d, hd, hk⟩ := List.mem_flatMap.mp he
    exact (hds d hd).mem (mem_listed.mp hk)
  rw [hsum]
  exact ⟨fun g n => by rw [hadds.value, sumOf_flatMap_listed], hadds.within⟩

/-! ### Tasks that failed -/

theorem mem_failures {results : List (Except ε Counters)} {i : Nat} {t : ε} :
    (i, t) ∈ failures results ↔ results[i]? = some (.error t) := by
  unfold failures
  rw [List.mem_filterMap, ← List.mk_mem_zipIdx_iff_getElem?]
  constructor
  · rintro ⟨⟨r, i'⟩, hmem, hr⟩
    cases r with
    | ok d => cases hr
    | error t' =>
      cases hr
      exact hmem
  · exact fun h => ⟨_, h, rfl⟩

/-- How failures are told does not matter for which there are. -/
theorem failures_mapError {ε' : Type} (f : ε → ε') (results : List (Except ε Counters)) :
    failures (results.map fun r => r.mapError f) =
      (failures results).map fun part => (part.1, f part.2) := by
  rw [failures, failures, List.zipIdx_map, List.filterMap_map, List.map_filterMap]
  refine List.filterMap_congr fun r _ => ?_
  obtain ⟨result, i⟩ := r
  cases result <;> rfl

theorem failures_eq_nil_iff {results : List (Except ε Counters)} :
    failures results = [] ↔ ∀ r ∈ results, ∃ c, r = .ok c := by
  rw [List.eq_nil_iff_forall_not_mem]
  constructor
  · intro h r hr
    obtain ⟨i, hi⟩ := List.mem_iff_getElem?.mp hr
    cases r with
    | ok c => exact ⟨c, rfl⟩
    | error t => exact absurd (mem_failures.mpr hi) (h (i, t))
  · rintro h ⟨i, t⟩ hmem
    obtain ⟨c, hc⟩ := h _ (List.mem_of_getElem? (mem_failures.mp hmem))
    cases hc

/-- Failures come in the order of the splits. -/
theorem pairwise_failures (results : List (Except ε Counters)) :
    ((failures results).map Prod.fst).Pairwise (· < ·) := by
  have hnumbers : results.zipIdx.Pairwise fun r r' => r.2 < r'.2 := by
    rw [← List.pairwise_map, List.zipIdx_map_snd]
    exact List.pairwise_lt_range'
  rw [List.pairwise_map]
  refine hnumbers.filterMap _ fun r r' hlt f hf f' hf' => ?_
  obtain ⟨result, i⟩ := r
  obtain ⟨result', i'⟩ := r'
  cases result with
  | ok d => cases hf
  | error t =>
    cases result' with
    | ok d => cases hf'
    | error t' =>
      cases hf
      cases hf'
      exact hlt

/-- **There is one list of all failures** in the order of the splits. -/
theorem eq_failures {results : List (Except ε Counters)} {parts : List (Nat × ε)}
    (hordered : (parts.map Prod.fst).Pairwise (· < ·))
    (hmem : ∀ i t, (i, t) ∈ parts ↔ results[i]? = some (.error t)) : parts = failures results := by
  have hlt : ∀ {ps : List (Nat × ε)}, (ps.map Prod.fst).Pairwise (· < ·) →
      ps.Pairwise fun p q => p.1 < q.1 := List.pairwise_map.mp
  have hnodup : ∀ {ps : List (Nat × ε)}, (ps.map Prod.fst).Pairwise (· < ·) → ps.Nodup :=
    fun hps => (hlt hps).imp fun h heq => Nat.ne_of_lt h (congrArg Prod.fst heq)
  have hperm : parts.Perm (failures results) := by
    rw [List.perm_ext_iff_of_nodup (hnodup hordered) (hnodup (pairwise_failures results))]
    exact fun part => (hmem part.1 part.2).trans mem_failures.symm
  exact hperm.eq_of_pairwise (fun _ _ _ _ h h' => absurd h' (Nat.lt_asymm h)) (hlt hordered)
    (hlt (pairwise_failures results))

end ScanJobs.Engine.LocalJob
