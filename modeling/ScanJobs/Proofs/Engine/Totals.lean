import ScanJobs.Proofs.Engine.Completion
import ScanJobs.Proofs.Engine.Results
import ScanJobs.Proofs.Task.Run

/-! # What a job comes to

A job that is waited for comes to what its tasks came to (`ComesTo`): it succeeds if none of them failed,
its counters are those of the tasks that succeeded, added up, and its failure tells of those that failed,
in the order of their splits. In which order the tasks complete or the splits are listed is not seen
(`Waited.determined`). -/

namespace ScanJobs.Engine.LocalJob

open Counters

variable {σ τ : Type}

/-! ### Results -/

/-- The results of tasks of which none stopped the program. -/
theorem results_eq {outcomes : List (Except Failure Counters)} {results : List TaskResult}
    (h : outcomes.mapM resultOf = .ok results) :
    results = outcomes.map fun o => o.mapError taskReport := by
  have hone : ∀ {o r}, resultOf o = .ok r → r = o.mapError taskReport := by
    intro o r hr
    cases o with
    | ok d => exact (Except.ok.inj hr).symm
    | error f =>
      rw [resultOf] at hr
      split at hr
      · exact (Except.ok.inj hr).symm
      · cases hr
  rw [mapM_eq_ok_iff] at h
  induction outcomes generalizing results with
  | nil =>
    cases results with
    | nil => rfl
    | cons r results => cases h
  | cons o outcomes ih =>
    cases results with
    | nil => cases h
    | cons r results =>
      obtain ⟨hr, hrest⟩ := List.cons.inj h
      rw [List.map_cons, hone hr, ih hrest]

theorem failures_eq_nil {outcomes : List (Except Failure Counters)} :
    failures (outcomes.map fun o => o.mapError taskReport) = [] ↔ ∀ o ∈ outcomes, ∃ d, o = .ok d := by
  rw [failures_mapError, List.map_eq_nil_iff, failures_eq_nil_iff]

/-- What a job tells of a task that failed: the number of its split, the kind of its failure, the message,
and where it was raised, which is left out. -/
def partText (part : Nat × Failure) : String :=
  "Task " ++ toString part.1 ++ " failed: " ++ part.2.kind.label ++ ": " ++ part.2.message ++
    "\n<traceback>"

theorem failureLine_eq (part : Nat × Failure) :
    failureLine (part.1, taskReport part.2) = partText part := by
  simp only [failureLine, taskReport, Failure.report, partText, String.append_assoc]

/-- **What a job comes to by the outcomes of its tasks.** -/
structure ComesTo (outcomes : List (Except Failure Counters)) (result : Except Failure Bool)
    (state : JobState) : Prop where
  returns : ∃ b, result = .ok b ∧ (b = true ↔ ∀ o ∈ outcomes, ∃ d, o = .ok d)
  merges : ∀ d, .ok d ∈ outcomes → ∀ c, ((merge d.toGroups).on c).1 = .ok ()
  value : ∀ g n, state.counters.value g n = ((succeeded outcomes).map fun d => d.value g n).sum
  has : ∀ g n, state.counters.Has g n ↔ ∃ d ∈ succeeded outcomes, d.Has g n
  opens : ∀ g, state.counters.Opens g ↔ ∃ n, state.counters.Has g n
  failure : ∃ parts : List (Nat × Failure),
    state.failure? = (if parts = [] then none else some ("\n".intercalate (parts.map partText))) ∧
    (parts.map Prod.fst).Pairwise (· < ·) ∧ ∀ i f, (i, f) ∈ parts ↔ outcomes[i]? = some (.error f)

theorem counters_finalState (results : List TaskResult) :
    (finalState results).counters = sumCounters results := by
  unfold finalState
  dsimp only
  split <;> rfl

theorem failure?_finalState (results : List TaskResult) :
    (finalState results).failure? =
      if failures results = [] then none
      else some ("\n".intercalate ((failures results).map failureLine)) := by
  unfold finalState
  dsimp only
  by_cases h : failures results = []
  · rw [if_pos (List.isEmpty_iff.mpr h), if_pos h]
    rfl
  · rw [if_neg (fun hempty => h (List.isEmpty_iff.mp hempty)), if_neg h]
    rfl

theorem comesTo_finalState {outcomes : List (Except Failure Counters)} {results : List TaskResult}
    (hnamed : ∀ d ∈ succeeded outcomes, d.Named) (htaken : outcomes.mapM resultOf = .ok results) :
    ComesTo outcomes (.ok (failures results).isEmpty) (finalState results) := by
  obtain rfl := results_eq htaken
  have hsum : sumCounters (outcomes.map fun o => o.mapError taskReport) =
      addAll ((succeeded outcomes).flatMap listed) Counters.empty := by
    rw [← succeeded_mapError taskReport] at hnamed ⊢
    exact sumCounters_eq hnamed
  exact {
    returns := ⟨_, rfl, by rw [List.isEmpty_iff, failures_eq_nil]⟩
    merges := fun d hd c => by rw [merge_eq (hnamed d (mem_succeeded.mpr hd))]
    value := by
      intro g n
      rw [counters_finalState, hsum, value_addAll, value_empty, Int.zero_add, sumOf_flatMap_listed]
    has := by
      intro g n
      rw [counters_finalState, hsum, has_addAll, or_iff_right (not_has_empty g n)]
      exact exists_mem_flatMap_listed
    opens := by
      intro g
      rw [counters_finalState, hsum]
      simp only [opens_addAll, has_addAll, not_opens_empty, not_has_empty, false_or]
      exact ⟨fun ⟨e, he, hg⟩ => ⟨e.2.1, e, he, hg, rfl⟩, fun ⟨_, e, he, hg, _⟩ => ⟨e, he, hg⟩⟩
    failure := by
      refine ⟨failures outcomes, ?_, pairwise_failures _, fun i f => mem_failures⟩
      have hlines : (failures (outcomes.map fun o => o.mapError taskReport)).map failureLine =
          (failures outcomes).map partText := by
        rw [failures_mapError, List.map_map]
        exact List.map_congr_left fun part _ => failureLine_eq part
      rw [failure?_finalState, hlines, failures_mapError]
      simp only [List.map_eq_nil_iff] }

/-! ### Submissions -/

/-- **A submission that is waited for**: its splits are planned, its workers can be had and take the tasks,
its caller is not told to stop, and its tasks, which complete in some order, count by increments only and do
not stop the program. -/
structure Waited (σ τ : Type) where
  stage : Stage σ (LocalJob σ τ)
  plan : Plan σ τ
  config : Config.Flat
  token : Option Token
  order : Order
  planned : stage.job.plan = .ok plan
  opened : stage.job.crew.opening = .ok ()
  taken : plan.handAll stage.job.crew.pool = .ok ()
  configured : stage.job.config = .this config
  untold : isInterrupted token plan.splits = .ok false
  counts : plan.task.Counts
  goesOn : ∀ split ∈ plan.splits, ∀ f, EndsWith plan config.copy split (.error f) →
    f.isOrdinary = true

namespace Waited

/-- The job after its tasks, and what its caller is told. -/
def ended (r : Waited σ τ) : Except Failure Bool × Stage σ (LocalJob σ τ) :=
  (submitWith (runTasksIn r.order) r.token).on r.stage

/-- The outcomes of the tasks, in the order of the splits. -/
def outcomes (r : Waited σ τ) : List (Except Failure Counters) :=
  ((runTasksIn r.order r.plan r.config.copy).on r.stage.journal.world).1.toOption.getD []

variable (r : Waited σ τ)

theorem outcomes_on : ∃ w, (runTasksIn r.order r.plan r.config.copy).on r.stage.journal.world =
      (.ok r.outcomes, w) ∧
    List.Forall₂ (EndsWith r.plan r.config.copy) r.plan.splits r.outcomes := by
  obtain ⟨outcomes, w, hrun, hends⟩ :=
    ends_runTasksIn r.order r.plan r.config.copy r.stage.journal.world
  have houtcomes : r.outcomes = outcomes := by
    rw [Waited.outcomes, hrun]
    rfl
  rw [houtcomes]
  exact ⟨w, hrun, hends⟩

theorem named {d : Counters} (hd : d ∈ succeeded r.outcomes) : d.Named := by
  obtain ⟨-, -, hends⟩ := r.outcomes_on
  obtain ⟨split, -, w, hrun⟩ := exists_left_of_forall₂ hends (mem_succeeded.mp hd)
  exact (r.counts.counted_of_run hrun).named

/-- The job ends, and comes to what its tasks came to. -/
theorem comesTo : ComesTo r.outcomes r.ended.1 r.ended.2.job.state := by
  obtain ⟨w, hrun, hends⟩ := r.outcomes_on
  have hsubmits := submits_on (ends_runTasksIn r.order) r.configured r.token
  unfold ended
  generalize (submitWith (runTasksIn r.order) r.token).on r.stage = ended at hsubmits
  obtain ⟨result, stage⟩ := ended
  have hran : ∀ {p outcomes w'}, Ran (runTasksIn r.order) r.config r.stage p outcomes w' →
      p = r.plan ∧ outcomes = r.outcomes := by
    intro p outcomes w' ran
    obtain rfl := Except.ok.inj (r.planned.symm.trans ran.planned)
    have hfst := inPool_fst r.stage.job.crew.pool (runTasksIn r.order r.plan r.config.copy)
      r.stage.journal.world
    rw [ran.on, hrun] at hfst
    exact ⟨rfl, Except.ok.inj hfst⟩
  cases hsubmits with
  | refused f plan => cases r.planned.symm.trans plan
  | unopened p plan f opening => cases r.opened.symm.trans opening
  | unheard p outcomes w' ran f heard =>
    obtain ⟨rfl, -⟩ := hran ran
    cases r.untold.symm.trans heard
  | interrupted p outcomes w' ran told =>
    obtain ⟨rfl, -⟩ := hran ran
    cases r.untold.symm.trans told
  | untaken p outcomes w' ran waited f results =>
    obtain ⟨rfl, rfl⟩ := hran ran
    rcases collect_eq_error results with hhand | ⟨hmem, hordinary⟩
    · exact absurd r.taken hhand
    · obtain ⟨split, hsplit, hend⟩ := exists_left_of_forall₂ hends hmem
      rw [r.goesOn split hsplit f hend] at hordinary
      cases hordinary
  | ended p outcomes w' ran waited results taken =>
    obtain ⟨rfl, rfl⟩ := hran ran
    obtain ⟨-, taken⟩ := (collect_eq_ok_iff hends.length_eq).mp taken
    exact comesTo_finalState (fun d hd => r.named hd) taken

end Waited

/-- What jobs come to by the same outcomes is the same, in whatever order these are. -/
theorem ComesTo.unique {outcomes outcomes' : List (Except Failure Counters)}
    {result result' : Except Failure Bool} {state state' : JobState}
    (h : ComesTo outcomes result state) (h' : ComesTo outcomes' result' state')
    (hperm : outcomes.Perm outcomes') :
    result = result' ∧ state.counters.mapping = state'.counters.mapping := by
  have hsucceeded : (succeeded outcomes).Perm (succeeded outcomes') := hperm.filterMap _
  have hhas : ∀ g n, state.counters.Has g n ↔ state'.counters.Has g n := by
    intro g n
    rw [h.has, h'.has]
    simp only [hsucceeded.mem_iff]
  refine ⟨?_, mapping_ext (fun g => ?_) hhas fun g n => ?_⟩
  · obtain ⟨b, rfl, hb⟩ := h.returns
    obtain ⟨b', rfl, hb'⟩ := h'.returns
    simp only [hperm.mem_iff] at hb
    rw [Bool.eq_iff_iff.mpr (hb.trans hb'.symm)]
  · rw [h.opens, h'.opens]
    simp only [hhas]
  · rw [h.value, h'.value, (hsucceeded.map _).sum_eq]

/-- Each split has one result, in whatever world its task runs. -/
def Waited.Assigned (r : Waited σ τ) (result : Value → Except Failure Counters) : Prop :=
  ∀ split ∈ r.plan.splits, ∀ o, EndsWith r.plan r.config.copy split o → o = result split

/-- The callers of two submissions are told the same, and the jobs have the same counters. -/
def Waited.Agree (r r' : Waited σ τ) : Prop :=
  r.ended.1 = r'.ended.1 ∧
    r.ended.2.job.state.counters.mapping = r'.ended.2.job.state.counters.mapping

/-- **A job is determined by the outcomes of its tasks**, and not by the order in which they complete or
in which the splits are listed. The order of the splits is one that an engine may run them in. -/
structure Waited.Determined (r : Waited σ τ) : Prop where
  ends : List.Forall₂ (EndsWith r.plan r.config.copy) r.plan.splits r.outcomes
  comesTo : ComesTo r.outcomes r.ended.1 r.ended.2.job.state
  assigned : ∀ result, r.Assigned result → r.outcomes = r.plan.splits.map result
  unordered : ∀ r' : Waited σ τ, r.outcomes.Perm r'.outcomes → r.Agree r'
  permuted : ∀ (r' : Waited σ τ) result, r.Assigned result → r'.Assigned result →
    r.plan.splits.Perm r'.plan.splits → r.Agree r'
  listed : r.order = Order.listed → r.ended = (submit r.token).on r.stage

theorem Waited.outcomes_eq (r : Waited σ τ) {result : Value → Except Failure Counters}
    (h : r.Assigned result) : r.outcomes = r.plan.splits.map result := by
  obtain ⟨-, -, hends⟩ := r.outcomes_on
  exact eq_map_of_forall₂ hends h

theorem Waited.agree (r r' : Waited σ τ) (h : r.outcomes.Perm r'.outcomes) : r.Agree r' :=
  r.comesTo.unique r'.comesTo h

/-- **Every job that is waited for is determined by the outcomes of its tasks.** -/
theorem Waited.determined (r : Waited σ τ) : r.Determined where
  ends := by
    obtain ⟨-, -, hends⟩ := r.outcomes_on
    exact hends
  comesTo := r.comesTo
  assigned _ h := r.outcomes_eq h
  unordered r' hperm := r.agree r' hperm
  permuted r' result h h' hperm := by
    apply r.agree r'
    rw [r.outcomes_eq h, r'.outcomes_eq h']
    exact hperm.map result
  listed horder := by rw [Waited.ended, horder, submitWith_listed]

/-! ### Three tasks, of which one fails -/

/-- Tasks that count themselves. -/
def tallying : TaskClass Unit Unit where
  name := "Tallying"
  create := .ok ()
  setup := Frame.counting (Counters.increment "job" "tasks" (.int 1))
  map _ := pure ()
  cleanup := pure ()

theorem counts_tallying : tallying.Counts where
  setup := Frame.keeps_counting (keeps_increment "job" "tasks" (.int 1))
  map _ := Act.keeps_pure ()
  cleanup := Act.keeps_pure ()

/-- A reader that cannot read the split that is no number. -/
def splitting (splits : List Value) : ReaderClass :=
  { name := "Splitting"
    create := fun _ => .ok ⟨.ok splits, fun split =>
      ⟨[], if split.integer?.isSome then none else some (.missing "split")⟩⟩ }

def tallyingPlan (splits : List Value) : Plan Unit Unit :=
  ⟨tallying, splitting splits, splits⟩

/-- How the tasks end. -/
def tallied (split : Value) : Except Failure Counters :=
  if split.integer?.isSome then
    .ok ((Counters.empty.add "job" "tasks" 1).add Task.group Task.mapTasks 1)
  else .error (.missing "split")

theorem ends_tallying {splits : List Value} {config : Config.Flat} {split : Value}
    {o : Except Failure Counters} (h : EndsWith (tallyingPlan splits) config split o) :
    o = tallied split := by
  obtain ⟨w, rfl⟩ := h
  change ((Task.inFrame config () (Task.life tallying ⟨[],
    if split.integer?.isSome then none else some (.missing "split")⟩) >>= fun cs =>
      pure (cs.add Task.group Task.mapTasks 1)).on w).1 = tallied split
  unfold tallied
  cases split.integer?.isSome with
  | true => rfl
  | false => rfl

/-- A job of tasks that count themselves, which complete in some order. -/
def tallyingJob (splits : List Value) (order : Order) : Waited Unit Unit where
  stage := ⟨⟨(), []⟩, ready ⟨.thread, .int 2⟩ Config.Flat.empty "job" tallying (splitting splits)⟩
  plan := tallyingPlan splits
  config := Config.Flat.empty
  token := none
  order
  planned := plan_ready rfl
  opened := rfl
  taken := handAll_thread _
  configured := rfl
  untold := isInterrupted_eq (b := false) rfl splits
  counts := counts_tallying
  goesOn split hsplit f h := by
    have hf := ends_tallying h
    unfold tallied at hf
    split at hf
    · cases hf
    · cases hf
      rfl

/-- The splits from the last one on. -/
def Order.reversed : Order :=
  ⟨fun splits => splits.zipIdx.reverse, fun splits => splits.zipIdx.reverse_perm⟩

/-- **One task of three fails**, which is told by its number, and the counters of the others are added up,
in whatever order they complete. -/
theorem one_of_three_fails :
    (tallyingJob [.int 1, .none, .int 2] .listed).ended.1 = .ok false ∧
      (tallyingJob [.int 1, .none, .int 2] .listed).ended.2.job.state.counters.value "job" "tasks" = 2 ∧
      (tallyingJob [.int 1, .none, .int 2] .listed).ended.2.job.state.failure? =
        some "Task 1 failed: ValueError: split must not be None\n<traceback>" ∧
      (tallyingJob [.int 1, .none, .int 2] .listed).Agree
        (tallyingJob [.none, .int 1, .int 2] .reversed) := by
  have hassigned : ∀ splits order, (tallyingJob splits order).Assigned tallied :=
    fun _ _ _ _ _ h => ends_tallying h
  have hperm : [Value.int 1, .none, .int 2].Perm [.none, .int 1, .int 2] := .swap ..
  have h := (tallyingJob [.int 1, .none, .int 2] .listed).determined
  have houtcomes : (tallyingJob [.int 1, .none, .int 2] .listed).outcomes =
      [tallied (.int 1), tallied .none, tallied (.int 2)] :=
    h.assigned tallied (hassigned _ _)
  refine ⟨?_, ?_, ?_, h.permuted _ tallied (hassigned _ _) (hassigned _ _) hperm⟩
  · obtain ⟨b, hb, hall⟩ := h.comesTo.returns
    rw [houtcomes] at hall
    cases b with
    | false => exact hb
    | true =>
      obtain ⟨d, hd⟩ := hall.mp rfl (tallied .none) (by simp)
      cases hd
  · rw [h.comesTo.value, houtcomes]
    rfl
  · obtain ⟨parts, htext, hordered, hparts⟩ := h.comesTo.failure
    rw [htext, eq_failures hordered hparts, houtcomes]
    rfl

end ScanJobs.Engine.LocalJob
