import ScanJobs.Proofs.Engine.Submission
import ScanJobs.Proofs.Table

/-! # Tasks that complete in any order

The tasks of a job complete in some order, and the outcome of each is put in the place of its split
(`runTasksIn`). In whatever order they complete, each split has the outcome of its task
(`ends_runTasksIn`), and if the tasks leave the world alone it is the same in all orders
(`runTasksIn_on`). One after the other is one of these orders (`runTasksIn_listed`). -/

namespace ScanJobs.Engine.LocalJob

variable {σ τ : Type}

/-- An order in which tasks complete: it tells of any splits which one is next, with its number. -/
structure Order where
  of : List Value → List (Value × Nat)
  perm : ∀ splits, (of splits).Perm splits.zipIdx

/-- The order of the splits themselves. -/
def Order.listed : Order :=
  ⟨List.zipIdx, fun _ => .refl _⟩

/-- What ended, in the order of the numbers below `n`. -/
def inPlace {α : Type} (n : Nat) (ended : List (Nat × α)) : List α :=
  (List.range n).filterMap fun i => Table.find i ended

/-- The task of a numbered split. -/
def complete (p : Plan σ τ) (config : Config.Flat) (s : Value × Nat) :
    Act σ (Nat × Except Failure Counters) := do
  return (s.2, ← Act.attempt (Task.run p.task p.reader config s.1))

/-- **Runs the tasks in the order in which they complete.** -/
def runTasksIn (order : Order) : TaskRun σ τ := fun p config => do
  let ended ← (order.of p.splits).mapM (complete p config)
  return inPlace p.splits.length ended

/-! ### Outcomes in their places -/

theorem forall₂_inPlace {α β : Type} {R : α → β → Prop} {xs : List α} {find : Nat → Option β}
    (h : ∀ i x, xs[i]? = some x → ∃ y, find i = some y ∧ R x y) :
    List.Forall₂ R xs ((List.range xs.length).filterMap find) := by
  induction xs generalizing find with
  | nil => exact .nil
  | cons x xs ih =>
    obtain ⟨y, hy, hR⟩ := h 0 x rfl
    rw [List.length_cons, List.range_succ_eq_map, List.filterMap_cons, hy, List.filterMap_map]
    exact .cons hR (ih fun i x' hx' => h (i + 1) x' hx')

theorem complete_on (p : Plan σ τ) (config : Config.Flat) (s : Value × Nat) (w : σ) :
    (complete p config s).on w = (.ok (s.2, ((Task.run p.task p.reader config s.1).on w).1),
      ((Task.run p.task p.reader config s.1).on w).2) := rfl

theorem nodup_numbers (splits : List Value) (order : Order) :
    ((order.of splits).map Prod.snd).Nodup := by
  rw [((order.perm splits).map Prod.snd).nodup_iff, List.zipIdx_map_snd]
  exact List.nodup_range'

/-- **In whatever order the tasks complete, each split has the outcome of its task.** -/
theorem ends_runTasksIn (order : Order) : Ends (runTasksIn order : TaskRun σ τ) := by
  intro p config w
  obtain ⟨ended, w', hended, hall⟩ := exists_mapM_on
    (R := fun s e => s.2 = e.1 ∧ EndsWith p config s.1 e.2)
    (fun s w => ⟨_, _, complete_on p config s w, rfl, w, rfl⟩) (order.of p.splits) w
  -- every number is that of one task
  have hnumbers : (order.of p.splits).map Prod.snd = ended.map Prod.fst := by
    rw [← List.forall₂_eq_eq_eq, List.forall₂_map_left_iff, List.forall₂_map_right_iff]
    exact hall.imp fun _ _ h => h.1
  have hnodup : (ended.map Prod.fst).Nodup := hnumbers ▸ nodup_numbers p.splits order
  refine ⟨_, w', Act.on_bind_ok hended, forall₂_inPlace fun i s hs => ?_⟩
  have hmem : (s, i) ∈ order.of p.splits :=
    (order.perm p.splits).mem_iff.mpr (List.mk_mem_zipIdx_iff_getElem?.mpr hs)
  obtain ⟨⟨_, outcome⟩, houtcome, rfl, hends⟩ := exists_right_of_forall₂ hall hmem
  exact ⟨outcome, (Table.find_eq_some_iff hnodup).mpr houtcome, hends⟩

/-- **Tasks that leave the world alone end alike in every order.** -/
theorem runTasksIn_on (order : Order) {p : Plan σ τ} {config : Config.Flat} {w : σ}
    {result : Value → Except Failure Counters}
    (h : ∀ s ∈ p.splits, (Task.run p.task p.reader config s).on w = (result s, w)) :
    (runTasksIn order p config).on w = (.ok (p.splits.map result), w) := by
  have hended : ((order.of p.splits).mapM (complete p config)).on w =
      (.ok ((order.of p.splits).map fun s => (s.2, result s.1)), w) := by
    refine Act.on_mapM fun s hs => ?_
    have hmem := (order.perm p.splits).mem_iff.mp hs
    rw [complete_on, h s.1 (List.fst_mem_of_mem_zipIdx hmem)]
  have hnodup : (((order.of p.splits).map fun s => (s.2, result s.1)).map Prod.fst).Nodup := by
    rw [List.map_map]
    exact nodup_numbers p.splits order
  have hplaces : List.Forall₂ (fun s outcome => outcome = result s) p.splits
      (inPlace p.splits.length ((order.of p.splits).map fun s => (s.2, result s.1))) := by
    refine forall₂_inPlace fun i s hs => ⟨result s, ?_, rfl⟩
    have hmem : (s, i) ∈ order.of p.splits :=
      (order.perm p.splits).mem_iff.mpr (List.mk_mem_zipIdx_iff_getElem?.mpr hs)
    exact (Table.find_eq_some_iff hnodup).mpr (List.mem_map.mpr ⟨(s, i), hmem, rfl⟩)
  rw [← eq_map_of_forall₂ hplaces fun _ _ _ hy => hy]
  exact Act.on_bind_ok hended

/-! ### One after the other -/

theorem inPlace_zipIdx {α : Type} (outcomes : List α) :
    inPlace outcomes.length (outcomes.zipIdx.map Prod.swap) = outcomes := by
  have hnodup : ((outcomes.zipIdx.map Prod.swap).map Prod.fst).Nodup := by
    rw [List.map_map]
    change (outcomes.zipIdx.map Prod.snd).Nodup
    rw [List.zipIdx_map_snd]
    exact List.nodup_range'
  have heq : List.Forall₂ Eq outcomes (inPlace outcomes.length (outcomes.zipIdx.map Prod.swap)) := by
    refine forall₂_inPlace fun i x hx => ⟨x, ?_, rfl⟩
    rw [Table.find_eq_some_iff hnodup]
    exact List.mem_map.mpr ⟨(x, i), List.mk_mem_zipIdx_iff_getElem?.mpr hx, rfl⟩
  rw [List.forall₂_eq_eq_eq] at heq
  exact heq.symm

/-- **Tasks that complete in the order of the splits run one after the other.** -/
theorem runTasksIn_listed : (runTasksIn Order.listed : TaskRun σ τ) = runTasks := by
  funext p config w
  have hall : ∀ (splits : List Value) (k : Nat) (w : σ), ∃ outcomes w',
      (splits.mapM fun s => Act.attempt (Task.run p.task p.reader config s)).on w =
        (.ok outcomes, w') ∧
      ((splits.zipIdx k).mapM (complete p config)).on w =
        (.ok ((outcomes.zipIdx k).map Prod.swap), w') ∧
      outcomes.length = splits.length := by
    intro splits
    induction splits with
    | nil => exact fun _ w => ⟨[], w, rfl, rfl, rfl⟩
    | cons s splits ih =>
      intro k w
      obtain ⟨outcomes, w', houtcomes, hcomplete, hlength⟩ :=
        ih (k + 1) ((Task.run p.task p.reader config s).on w).2
      refine ⟨((Task.run p.task p.reader config s).on w).1 :: outcomes, w', ?_, ?_, by simp [hlength]⟩
      · rw [List.mapM_cons, Act.on_bind_ok (Act.on_attempt _ _), Act.on_bind_ok houtcomes]
        rfl
      · rw [List.zipIdx_cons, List.mapM_cons, Act.on_bind_ok (complete_on p config (s, k) w),
          Act.on_bind_ok hcomplete]
        rfl
  obtain ⟨outcomes, w', houtcomes, hcomplete, hlength⟩ := hall p.splits 0 w
  have hlisted : (runTasksIn Order.listed p config).on w = (.ok outcomes, w') := by
    refine (Act.on_bind_ok hcomplete).trans ?_
    rw [← hlength, inPlace_zipIdx]
    rfl
  exact hlisted.trans houtcomes.symm

/-- So a job is submitted like this by an engine. -/
theorem submitWith_listed (token : Option Token) :
    (submitWith (runTasksIn Order.listed) token : Running σ τ Bool) = submit token := by
  rw [runTasksIn_listed, submitWith_runTasks]

end ScanJobs.Engine.LocalJob
