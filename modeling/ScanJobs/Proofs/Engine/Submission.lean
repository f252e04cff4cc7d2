import ScanJobs.Engine.LocalJob
import ScanJobs.Proofs.Fallible
import ScanJobs.Proofs.Lists

/-! # Submitting a local job

What a submission does to a job depends on how its tasks end, and not on how they are run: `submitWith`
runs them in any way, and `submit` one after the other (`submitWith_runTasks`). A submission is refused
and changes nothing if the job cannot be planned. Otherwise the job runs; its workers cannot be had, its
caller is told to stop waiting, the results of the tasks cannot all be taken, or all tasks end and the job
with them. There is nothing else that a submission can do (`submits_on`). -/

namespace ScanJobs.Engine.LocalJob

variable {σ τ : Type}

/-- A way to run the tasks of a plan: it tells how each of them ended. -/
abbrev TaskRun (σ τ : Type) := Plan σ τ → Config.Flat → Act σ (List (Except Failure Counters))

/-- Submits a job whose tasks are run in some way. -/
def submitWith (run : TaskRun σ τ) (token : Option Token) : Running σ τ Bool := do
  let j ← Act.read Stage.job
  let p ← Act.ofExcept j.plan
  setState .running
  log ("Running job " ++ j.id ++ " (" ++ j.name.plain ++ ") with " ++ toString p.splits.length ++
    " splits")
  let config ← Act.ofExcept (j.config.get "config_as_dict")
  Act.ofExcept j.crew.opening
  let outcomes ← Stage.onJournal (Journal.onWorld (inPool j.crew.pool (run p config.copy)))
  if ← Act.ofExcept (isInterrupted token p.splits) then throw (.engine (.interrupted j.id))
  finish j.id (← Act.ofExcept (p.collect j.crew.pool outcomes))

theorem submitWith_runTasks : (submitWith runTasks : Option Token → Running σ τ Bool) = submit := rfl

/-! ### The tasks -/

theorem eq_map_of_forall₂ {α β : Type} {R : α → β → Prop} {f : α → β} {xs : List α} {ys : List β}
    (h : List.Forall₂ R xs ys) (hf : ∀ x ∈ xs, ∀ y, R x y → y = f x) : ys = xs.map f := by
  induction h with
  | nil => rfl
  | cons hxy hrest ih =>
    have hxs := ih fun x hx => hf x (List.mem_cons_of_mem _ hx)
    rw [List.map_cons, hf _ (List.mem_cons_self ..) _ hxy, hxs]

/-- The task of a split ends like this in some world. -/
def EndsWith (p : Plan σ τ) (config : Config.Flat) (s : Value) (outcome : Except Failure Counters) :
    Prop :=
  ∃ w, ((Task.run p.task p.reader config s).on w).1 = outcome

/-- The tasks are run to their ends, whatever these are: each split has its outcome. -/
def Ends (run : TaskRun σ τ) : Prop :=
  ∀ (p : Plan σ τ) (config : Config.Flat) (w : σ), ∃ outcomes w',
    (run p config).on w = (.ok outcomes, w') ∧
      List.Forall₂ (EndsWith p config) p.splits outcomes

/-- Acts that always end do so one after the other. -/
theorem exists_mapM_on {α β : Type} {act : α → Act σ β} {R : α → β → Prop}
    (hact : ∀ x w, ∃ y w', (act x).on w = (.ok y, w') ∧ R x y) (xs : List α) (w : σ) :
    ∃ ys w', (xs.mapM act).on w = (.ok ys, w') ∧ List.Forall₂ R xs ys := by
  induction xs generalizing w with
  | nil => exact ⟨[], w, rfl, .nil⟩
  | cons x xs ih =>
    obtain ⟨y, w₁, hfirst, hR⟩ := hact x w
    obtain ⟨ys, w', hrest, hall⟩ := ih w₁
    refine ⟨y :: ys, w', ?_, .cons hR hall⟩
    rw [List.mapM_cons, Act.on_bind_ok hfirst, Act.on_bind_ok hrest]
    rfl

theorem ends_runTasks : Ends (runTasks : TaskRun σ τ) := by
  intro p config
  exact exists_mapM_on (fun s w => ⟨_, _, Act.on_attempt _ w, w, rfl⟩) p.splits

/-- What processes do to the world is lost, but not how they end. -/
theorem inPool_fst {α : Type} (pool : Pool) (a : Act σ α) (w : σ) :
    ((inPool pool a).on w).1 = (a.on w).1 := by
  cases pool <;> rfl

theorem inPool_ok {α : Type} {a : Act σ α} {w w₁ : σ} {x : α} (pool : Pool)
    (h : a.on w = (.ok x, w₁)) : ∃ w', (inPool pool a).on w = (.ok x, w') := by
  have hfst := inPool_fst pool a w
  rw [h] at hfst
  exact ⟨((inPool pool a).on w).2, Prod.ext hfst rfl⟩

theorem Ends.of_ran {run : TaskRun σ τ} (hrun : Ends run) {pool : Pool} {p : Plan σ τ}
    {config : Config.Flat} {w w' : σ} {outcomes : List (Except Failure Counters)}
    (ran : (inPool pool (run p config)).on w = (.ok outcomes, w')) :
    List.Forall₂ (EndsWith p config) p.splits outcomes := by
  obtain ⟨outcomes', w₁, hended, hends⟩ := hrun p config w
  have hfst := inPool_fst pool (run p config) w
  rw [ran, hended] at hfst
  obtain rfl := Except.ok.inj hfst
  exact hends

theorem resultOf_eq_error {outcome : Except Failure Counters} {f : Failure}
    (h : resultOf outcome = .error f) : outcome = .error f ∧ f.isOrdinary = false := by
  cases outcome with
  | ok c => cases h
  | error f' =>
    rw [resultOf] at h
    cases hordinary : f'.isOrdinary with
    | true =>
      rw [hordinary] at h
      cases h
    | false =>
      rw [hordinary] at h
      cases h
      exact ⟨rfl, hordinary⟩

/-- Hands over the tasks of all splits in turn. -/
def Plan.handAll (p : Plan σ τ) (pool : Pool) : Except Failure Unit :=
  p.splits.forM (p.handOver pool)

theorem handAll_thread (p : Plan σ τ) : p.handAll .thread = .ok () :=
  forM_eq_ok_iff.mpr fun _ _ => rfl

/-- Results that cannot all be taken: a task was not handed over, or stops the program. -/
theorem collect_eq_error {p : Plan σ τ} {pool : Pool} {outcomes : List (Except Failure Counters)}
    {f : Failure} (h : p.collect pool outcomes = .error f) :
    p.handAll pool ≠ .ok () ∨ .error f ∈ outcomes ∧ f.isOrdinary = false := by
  obtain ⟨⟨split, outcome⟩, hmem, hstop⟩ := exists_of_mapM_error h
  obtain ⟨hsplit, houtcome⟩ := List.of_mem_zip hmem
  rcases bind_eq_error_iff.mp hstop with hhand | ⟨u, -, hresult⟩
  · refine .inl fun hall => ?_
    cases hhand.symm.trans (forM_eq_ok_iff.mp hall split hsplit)
  · obtain ⟨rfl, hordinary⟩ := resultOf_eq_error hresult
    exact .inr ⟨houtcome, hordinary⟩

/-- **The results are taken as they are once all tasks were handed over.** If no task stops the program, what
could not be handed over comes first. -/
theorem collect_eq {p : Plan σ τ} {pool : Pool} {outcomes : List (Except Failure Counters)}
    (hlength : p.splits.length = outcomes.length)
    (h : p.handAll pool = .ok () ∨ ∀ f, .error f ∈ outcomes → f.isOrdinary = true) :
    p.collect pool outcomes = p.handAll pool >>= fun _ => outcomes.mapM resultOf := by
  unfold Plan.collect Plan.handAll at *
  -- by induction on the splits and what came of their tasks
  generalize p.splits = splits at hlength h
  induction splits generalizing outcomes with
  | nil =>
    cases outcomes with
    | nil => rfl
    | cons o outcomes => cases hlength
  | cons split splits ih =>
    cases outcomes with
    | nil => cases hlength
    | cons o outcomes =>
      have hcons : (split :: splits).forM (p.handOver pool) =
          p.handOver pool split >>= fun _ => splits.forM (p.handOver pool) := rfl
      rw [hcons] at h ⊢
      rw [List.zip_cons_cons, List.mapM_cons, List.mapM_cons]
      cases hsplit : p.handOver pool split with
      | error f => rfl
      | ok u =>
        rw [hsplit] at h
        have hrest := ih (Nat.succ.inj hlength)
          (h.imp_right fun hordinary f hf => hordinary f (List.mem_cons_of_mem _ hf))
        rw [hrest]
        rcases h with hall | hordinary
        · have hsplits : splits.forM (p.handOver pool) = .ok () := hall
          rw [hsplits]
          rfl
        · cases ho : resultOf o with
          | error f =>
            obtain ⟨rfl, hstops⟩ := resultOf_eq_error ho
            cases hstops.symm.trans (hordinary f (List.mem_cons_self ..))
          | ok result => cases splits.forM (p.handOver pool) <;> rfl

theorem collect_eq_ok_iff {p : Plan σ τ} {pool : Pool} {outcomes : List (Except Failure Counters)}
    (hlength : p.splits.length = outcomes.length) {results : List TaskResult} :
    p.collect pool outcomes = .ok results ↔
      p.handAll pool = .ok () ∧ outcomes.mapM resultOf = .ok results := by
  constructor
  · intro h
    have hhanded : p.handAll pool = .ok () := by
      refine forM_eq_ok_iff.mpr fun split hsplit => ?_
      rw [← List.map_fst_zip (Nat.le_of_eq hlength)] at hsplit
      obtain ⟨⟨_, outcome⟩, hmem, rfl⟩ := List.mem_map.mp hsplit
      obtain ⟨result, hresult⟩ := exists_of_mapM h hmem
      obtain ⟨u, hhand, -⟩ := bind_eq_ok_iff.mp hresult
      exact hhand
    rw [collect_eq hlength (.inl hhanded), hhanded] at h
    exact ⟨hhanded, h⟩
  · rintro ⟨hhanded, hresults⟩
    rw [collect_eq hlength (.inl hhanded), hhanded]
    exact hresults

/-! ### Setting up and planning -/

variable {j : LocalJob σ τ}

theorem checkDefine_eq_ok_iff : j.checkDefine = .ok () ↔ j.state = .define := by
  unfold checkDefine
  cases j.state <;> simp

theorem checkDefine_of_ne (h : j.state ≠ .define) :
    j.checkDefine = .error (.engine (.notDefining j.id j.state.label)) := by
  unfold checkDefine
  cases hstate : j.state with
  | define => exact absurd hstate h
  | running => rfl
  | succeeded c => rfl
  | failed c text => rfl

theorem plan_of_ne (h : j.state ≠ .define) :
    j.plan = .error (.engine (.notDefining j.id j.state.label)) := by
  rw [plan, checkDefine_of_ne h]
  rfl

theorem assign_of_ne (h : j.state ≠ .define) (x : Setting σ τ) :
    j.assign x = .error (.engine (.notDefining j.id j.state.label)) := by
  unfold assign
  rw [checkDefine_of_ne h]
  rfl

/-- A job that takes a setting was not submitted yet, and is the same job. -/
theorem same_of_assign {x : Setting σ τ} {j' : LocalJob σ τ} (h : j.assign x = .ok j') :
    j.state = .define ∧ j'.state = .define ∧ j'.id = j.id ∧ j'.config = j.config := by
  obtain ⟨_, hdefine, h⟩ := bind_eq_ok_iff.mp h
  have hstate := checkDefine_eq_ok_iff.mp hdefine
  cases x with
  | name v =>
    cases h
    exact ⟨hstate, hstate, rfl, rfl⟩
  | output slot c =>
    cases h
    exact ⟨hstate, hstate, rfl, rfl⟩
  | reduceTasks n =>
    obtain ⟨_, -, h⟩ := bind_eq_ok_iff.mp h
    cases h
    exact ⟨hstate, hstate, rfl, rfl⟩
  | task c =>
    cases h
    exact ⟨hstate, hstate, rfl, rfl⟩
  | reader c =>
    cases h
    exact ⟨hstate, hstate, rfl, rfl⟩

theorem assign_no_reduceTasks (h : j.state = .define) :
    j.assign (.reduceTasks (.int 0)) = .ok { j with reduceTasks := .int 0 } := by
  have hcompare : Value.compare .below (.int 0) (.int 0) = .ok false := by
    unfold Value.compare
    rfl
  have hzero : checkReduceTasks (.int 0) = .ok () := by
    rw [checkReduceTasks, hcompare]
  exact bind_eq_ok_iff.mpr ⟨(), checkDefine_eq_ok_iff.mpr h, bind_eq_ok_iff.mpr ⟨(), hzero, rfl⟩⟩

theorem define_of_plan {p : Plan σ τ} (h : j.plan = .ok p) : j.state = .define := by
  obtain ⟨_, hdefine, -⟩ := bind_eq_ok_iff.mp h
  exact checkDefine_eq_ok_iff.mp hdefine

/-- A job that cannot be planned was submitted before, is refused, or stops the program. -/
theorem kind_of_plan_error {f : Failure} (h : j.plan = .error f) :
    f.kind = .runtime ∧ j.state ≠ .define ∨ j.state = .define ∧
      (f.kind = .jobSubmission ∨ f.kind = .value ∨ f.isOrdinary = false) := by
  by_cases hstate : j.state = .define
  · refine .inr ⟨hstate, ?_⟩
    rw [plan, checkDefine_eq_ok_iff.mpr hstate] at h
    dsimp only [bind, Except.bind] at h
    split at h
    · split at h
      · obtain rfl := Except.error.inj h
        split
        · exact .inl rfl
        · exact .inr (.inl rfl)
      · split at h
        · cases h
        · next f' _ =>
          cases h
          cases hordinary : f'.isOrdinary with
          | true => exact .inl rfl
          | false => exact .inr (.inr hordinary)
    · cases h
      exact .inl rfl
  · rw [plan_of_ne hstate] at h
    cases h
    exact .inl ⟨rfl, hstate⟩

/-- Planning a job that was set up for tasks and a reader is planning its splits. -/
theorem plan_of_set {j : LocalJob σ τ} {task : TaskClass σ τ} {reader : ReaderClass}
    (hstate : j.state = .define) (htask : j.task = some task) (hreader : j.reader = some reader)
    (hreduce : j.reduceTasks = .int 0) :
    j.plan = ((splitsOf reader j.config).mapError fun f =>
      if f.isOrdinary then .engine (.unplanned j.id f.message) else f).map (⟨task, reader, ·⟩) := by
  have hsame : Value.same (.int 0) (.int 0) = true := by
    unfold Value.same
    rfl
  have hdefine : j.checkDefine = .ok () := by
    rw [checkDefine, hstate]
  rw [plan, hdefine, htask, hreader, hreduce]
  dsimp only [bind, Except.bind]
  rw [hsame]
  cases splitsOf reader j.config <;> rfl

theorem plan_eq {j : LocalJob σ τ} {task : TaskClass σ τ} {reader : ReaderClass}
    {splits : List Value} (hstate : j.state = .define) (htask : j.task = some task)
    (hreader : j.reader = some reader) (hreduce : j.reduceTasks = .int 0)
    (hsplits : splitsOf reader j.config = .ok splits) : j.plan = .ok ⟨task, reader, splits⟩ := by
  rw [plan_of_set hstate htask hreader hreduce, hsplits]
  rfl

theorem plan_eq_error {j : LocalJob σ τ} {task : TaskClass σ τ} {reader : ReaderClass}
    {f : Failure} (hstate : j.state = .define) (htask : j.task = some task)
    (hreader : j.reader = some reader) (hreduce : j.reduceTasks = .int 0)
    (hsplits : splitsOf reader j.config = .error f) (hf : f.isOrdinary = true) :
    j.plan = .error (.engine (.unplanned j.id f.message)) := by
  rw [plan_of_set hstate htask hreader hreduce, hsplits, Except.mapError, if_pos hf]
  rfl

theorem exists_splits_of_plan {j : LocalJob σ τ} {task : TaskClass σ τ} {reader : ReaderClass}
    {p : Plan σ τ} (hstate : j.state = .define) (htask : j.task = some task)
    (hreader : j.reader = some reader) (hreduce : j.reduceTasks = .int 0) (h : j.plan = .ok p) :
    ∃ splits, splitsOf reader j.config = .ok splits ∧ ⟨task, reader, splits⟩ = p := by
  rw [plan_of_set hstate htask hreader hreduce] at h
  obtain ⟨splits, hsplits, hp⟩ := map_eq_ok_iff.mp h
  exact ⟨splits, mapError_eq_ok_iff.mp hsplits, hp⟩

/-- A job that was made ready to run tasks on the splits of a reader. -/
def ready (crew : Crew) (c : Config.Flat) (id : String) (task : TaskClass σ τ)
    (reader : ReaderClass) : LocalJob σ τ :=
  { (create crew (.this c) id : LocalJob σ τ) with
    task := some task, reader := some reader, reduceTasks := .int 0 }

theorem plan_ready {crew : Crew} {c : Config.Flat} {id : String} {task : TaskClass σ τ}
    {reader : ReaderClass} {splits : List Value} (h : splitsOf reader (.this c) = .ok splits) :
    (ready crew c id task reader).plan = .ok ⟨task, reader, splits⟩ :=
  plan_eq rfl rfl rfl rfl h

/-! ### The job -/

/-- The results are taken: the job has ended, and it has succeeded if no task failed. -/
theorem finish_on (id : String) (results : List TaskResult) (s : Stage σ (LocalJob σ τ)) :
    ∃ lines, (finish id results).on s = (.ok (failures results).isEmpty,
      ⟨⟨s.journal.world, lines⟩, { s.job with state := finalState results }⟩) := by
  have hset : (setState (finalState results)).on s =
      (.ok (), { s with job := { s.job with state := finalState results } }) := rfl
  rw [finish, Act.on_bind_ok hset]
  cases hfailed : failures results with
  | nil => exact ⟨_, rfl⟩
  | cons f fs =>
    dsimp only
    rw [if_neg (by simp)]
    exact ⟨_, rfl⟩

/-- The tasks of a submitted job have run, with these outcomes, and left this world. -/
structure Ran (run : TaskRun σ τ) (c : Config.Flat) (s : Stage σ (LocalJob σ τ)) (p : Plan σ τ)
    (outcomes : List (Except Failure Counters)) (w : σ) : Prop where
  planned : s.job.plan = .ok p
  opened : s.job.crew.opening = .ok ()
  on : (inPool s.job.crew.pool (run p c.copy)).on s.journal.world = (.ok outcomes, w)

/-- **What a submission does**, by how it ends. Whether the caller is told to stop waiting depends on
the splits that are waited for. -/
inductive Submits (run : TaskRun σ τ) (c : Config.Flat) (token : Option Token)
    (s : Stage σ (LocalJob σ τ)) : Except Failure Bool → Stage σ (LocalJob σ τ) → Prop where
  | refused (f : Failure) (plan : s.job.plan = .error f) : Submits run c token s (.error f) s
  | unopened (p : Plan σ τ) (plan : s.job.plan = .ok p) (f : Failure)
      (opening : s.job.crew.opening = .error f) (lines : List Line) :
      Submits run c token s (.error f) ⟨⟨s.journal.world, lines⟩, { s.job with state := .running }⟩
  | unheard (p : Plan σ τ) (outcomes : List (Except Failure Counters)) (w : σ)
      (ran : Ran run c s p outcomes w) (f : Failure)
      (heard : isInterrupted token p.splits = .error f) (lines : List Line) :
      Submits run c token s (.error f) ⟨⟨w, lines⟩, { s.job with state := .running }⟩
  | interrupted (p : Plan σ τ) (outcomes : List (Except Failure Counters)) (w : σ)
      (ran : Ran run c s p outcomes w) (told : isInterrupted token p.splits = .ok true)
      (lines : List Line) :
      Submits run c token s (.error (.engine (.interrupted s.job.id)))
        ⟨⟨w, lines⟩, { s.job with state := .running }⟩
  | untaken (p : Plan σ τ) (outcomes : List (Except Failure Counters)) (w : σ)
      (ran : Ran run c s p outcomes w) (waited : isInterrupted token p.splits = .ok false)
      (f : Failure) (results : p.collect s.job.crew.pool outcomes = .error f) (lines : List Line) :
      Submits run c token s (.error f) ⟨⟨w, lines⟩, { s.job with state := .running }⟩
  | ended (p : Plan σ τ) (outcomes : List (Except Failure Counters)) (w : σ)
      (ran : Ran run c s p outcomes w) (waited : isInterrupted token p.splits = .ok false)
      (results : List TaskResult) (taken : p.collect s.job.crew.pool outcomes = .ok results)
      (lines : List Line) :
      Submits run c token s (.ok (failures results).isEmpty)
        ⟨⟨w, lines⟩, { s.job with state := finalState results }⟩

/-- A job that was submitted before is not submitted again. -/
theorem Submits.eq_of_ne {run : TaskRun σ τ} {c : Config.Flat} {token : Option Token}
    {s s' : Stage σ (LocalJob σ τ)} {result : Except Failure Bool}
    (h : Submits run c token s result s') (hne : s.job.state ≠ .define) :
    result = .error (.engine (.notDefining s.job.id s.job.state.label)) ∧ s' = s := by
  cases h with
  | refused f plan =>
    rw [plan_of_ne hne] at plan
    cases plan
    exact ⟨rfl, rfl⟩
  | unopened p plan => exact absurd (define_of_plan plan) hne
  | unheard p outcomes w ran => exact absurd (define_of_plan ran.planned) hne
  | interrupted p outcomes w ran => exact absurd (define_of_plan ran.planned) hne
  | untaken p outcomes w ran => exact absurd (define_of_plan ran.planned) hne
  | ended p outcomes w ran => exact absurd (define_of_plan ran.planned) hne

/-- One who waits for no task is not told to stop. -/
theorem isInterrupted_eq {token : Option Token} {b : Bool}
    (htoken : token.elim (.ok false) Token.requested = .ok b) (splits : List Value) :
    isInterrupted token splits = .ok (b && !splits.isEmpty) := by
  unfold isInterrupted
  cases splits with
  | nil => cases b <;> rfl
  | cons s splits => cases b <;> exact htoken

/-- One who is not told to stop waits for all splits. -/
theorem not_told {token : Option Token} (htoken : ∀ t ∈ token, t.requested = .ok false)
    (splits : List Value) : isInterrupted token splits = .ok false := by
  have hrequested : token.elim (.ok false) Token.requested = .ok false := by
    cases token with
    | none => rfl
    | some t => exact htoken t rfl
  rw [isInterrupted_eq hrequested, Bool.false_and]

/-- One who waits for a split stops if he is told to. -/
theorem told {t : Token} (ht : t.requested = .ok true) {splits : List Value} (hsplits : splits ≠ []) :
    isInterrupted (some t) splits = .ok true := by
  have hrequested : (some t).elim (.ok false) Token.requested = .ok true := ht
  rw [isInterrupted_eq hrequested, List.isEmpty_eq_false_iff.mpr hsplits]
  rfl

theorem submits_on {run : TaskRun σ τ} (hrun : Ends run) {c : Config.Flat}
    {s : Stage σ (LocalJob σ τ)} (hconfig : s.job.config = .this c) (token : Option Token) :
    Submits run c token s ((submitWith run token).on s).1 ((submitWith run token).on s).2 := by
  obtain ⟨⟨w, lines⟩, j⟩ := s
  rw [submitWith, Act.on_read_bind]
  dsimp only
  cases hplan : j.plan with
  | error f =>
    rw [Act.on_bind_error (Act.on_ofExcept _ _)]
    exact .refused f hplan
  | ok p =>
    rw [Act.on_bind_ok (Act.on_ofExcept _ _)]
    -- from here on the job runs
    have hset : (setState .running).on (⟨⟨w, lines⟩, j⟩ : Stage σ (LocalJob σ τ)) =
        (.ok (), ⟨⟨w, lines⟩, { j with state := .running }⟩) := rfl
    have hlog : ∀ text, (log text).on
        (⟨⟨w, lines⟩, { j with state := .running }⟩ : Stage σ (LocalJob σ τ)) =
          (.ok (), ⟨⟨w, lines ++ [⟨.info, text⟩]⟩, { j with state := .running }⟩) := fun _ => rfl
    have hgiven : j.config.get "config_as_dict" = .ok c := by
      rw [hconfig]
      rfl
    rw [Act.on_bind_ok hset, Act.on_bind_ok (hlog _), Act.on_ofExcept_bind_ok hgiven]
    cases hopening : j.crew.opening with
    | error f =>
      rw [Act.on_bind_error (Act.on_ofExcept _ _)]
      exact .unopened p hplan f hopening _
    | ok u =>
      obtain ⟨outcomes, w₁, houtcomes, -⟩ := hrun p c.copy w
      obtain ⟨w', hpool⟩ := inPool_ok j.crew.pool houtcomes
      have hrest : ∀ lines, (Stage.onJournal (Journal.onWorld (inPool j.crew.pool (run p c.copy)))).on
          (⟨⟨w, lines⟩, { j with state := .running }⟩ : Stage σ (LocalJob σ τ)) =
            (.ok outcomes, ⟨⟨w', lines⟩, { j with state := .running }⟩) := by
        intro lines
        rw [Stage.onJournal, Act.on_zoom, Journal.onWorld, Act.on_zoom, hpool]
      have ran : Ran run c ⟨⟨w, lines⟩, j⟩ p outcomes w' := ⟨hplan, hopening, hpool⟩
      rw [Act.on_bind_ok (Act.on_ofExcept _ _), Act.on_bind_ok (hrest _)]
      cases hheard : isInterrupted token p.splits with
      | error f =>
        rw [Act.on_bind_error (Act.on_ofExcept _ _)]
        exact .unheard p outcomes w' ran f hheard _
      | ok told =>
        rw [Act.on_bind_ok (Act.on_ofExcept _ _)]
        cases told with
        | true => exact .interrupted p outcomes w' ran hheard _
        | false =>
          rw [if_neg Bool.false_ne_true]
          cases hresults : p.collect j.crew.pool outcomes with
          | error f =>
            rw [Act.on_bind_error (Act.on_ofExcept _ _)]
            exact .untaken p outcomes w' ran hheard f hresults _
          | ok results =>
            rw [Act.on_bind_ok (Act.on_ofExcept _ _)]
            obtain ⟨lines', hfinish⟩ := finish_on j.id results
              (⟨⟨w', lines ++ [⟨.info, _⟩]⟩, { j with state := .running }⟩ :
                Stage σ (LocalJob σ τ))
            rw [hfinish]
            exact .ended p outcomes w' ran hheard results hresults lines'

end ScanJobs.Engine.LocalJob
