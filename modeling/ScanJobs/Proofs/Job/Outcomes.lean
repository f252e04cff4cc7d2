import ScanJobs.Proofs.Engine.LocalJob
import ScanJobs.Proofs.Engine.Totals
import ScanJobs.Proofs.Task.Failing

/-! # All that can come of a scan job on a local engine

A descriptor that was built asks for no reduce tasks and names both classes, so a new job of a local
engine takes all its settings and can only fail to plan its splits. A job that has ended without success
says why, and its counters always have metrics. So of the ways in which a job may go wrong on some engine
few are left on a local one if tasks and readers have ordinary failures only (`Execution.comesTo_result`): the
splits cannot be planned, the caller is told to stop waiting, or tasks fail and the outcome tells of them.

One more way is that its workers cannot be had, or a task cannot be handed to them
(`Execution.served`). That failure gets out as it is.
-/

namespace ScanJobs.Job

open Engine Counters

variable {σ τ η : Type}

/-! ### Built descriptors -/

/-- Only classes, and a name that is not blank, make a descriptor. -/
theorem exists_of_build {config : Given Config.Flat} {reader : ClassArg ReaderClass} {name : Value}
    {task : ClassArg (TaskClass σ τ)} {d : Descriptor σ τ}
    (h : Descriptor.build config reader name task = .ok d) :
    ∃ n t r, task = .cls t ∧ reader = .cls r ∧ d = descriptorOf n t r := by
  have hclass : ∀ {α : Type} {role : String} {x : ClassArg α} {c : α},
      Descriptor.classOf role x = .ok c → x = .cls c := by
    intro α role x c hx
    cases x with
    | cls c' =>
      cases hx
      rfl
    | null => cases hx
    | other => cases hx
  unfold Descriptor.build at h
  split at h
  · cases h
  · obtain ⟨n, -, h⟩ := bind_eq_ok_iff.mp h
    obtain ⟨t, ht, h⟩ := bind_eq_ok_iff.mp h
    obtain ⟨r, hr, h⟩ := bind_eq_ok_iff.mp h
    exact ⟨n, t, r, hclass ht, hclass hr, (Except.ok.inj h).symm⟩

/-! ### What an engine tells -/

/-- What becomes of a failed submission. -/
def refusal (d : Descriptor σ τ) (f : Failure) : Failure :=
  if f.kind = .jobSubmission then .job (.notSubmitted d.name f.message f.jobId?) else f

theorem conclude_error {engine : Engine σ τ η} (d : Descriptor σ τ) {token : Option Token}
    {s s' : Stage σ η} {f : Failure} (h : (engine.submit token).on s = (.error f, s')) :
    ((conclude engine d token).on s).1 = .error (refusal d f) := by
  have hsubmit : (submitJob engine d token).on s = (.error (refusal d f), s') := by
    rw [submitJob, Act.on_attempt_bind h]
    rfl
  rw [conclude, Act.on_bind_error hsubmit]

theorem conclude_ok {engine : Engine σ τ η} (d : Descriptor σ τ) {token : Option Token}
    {s s' : Stage σ η} {b : Bool} (h : (engine.submit token).on s = (.ok b, s')) :
    (conclude engine d token).on s =
      (if b then whenSucceeded engine d else whenFailed engine d).on s' := by
  rw [conclude, Act.on_bind_ok ((submitJob_on engine d).mpr h)]

/-- A failed job of which the engine tells has an outcome that tells the same. -/
theorem whenFailed_fst {engine : Engine σ τ η} (d : Descriptor σ τ) {s s' : Stage σ η}
    {id failure : Value} (h : (readFailure engine).on s = (.ok (id, failure), s')) :
    ((whenFailed engine d).on s).1 = .ok (failureOf d (.ok (id, failure))) := by
  rw [whenFailed, Act.on_attempt_bind h]
  rfl

/-- A local job that has failed tells its id and why it failed. -/
theorem readFailure_on {e : Local} {newId : Act σ String}
    {submit : Option Token → LocalJob.Running σ τ Bool} {s : Stage σ (LocalJob σ τ)} {text : String}
    (h : s.job.state.failure? = some text) :
    (readFailure (submitting e newId submit)).on s = (.ok (.text s.job.id, .text text), s) := by
  have htext : s.job.failureText = .ok text := by
    rw [LocalJob.failureText, h]
  have htold : (submitting e newId submit).failureText.on s = (.ok (.text text), s) :=
    (Act.on_read_bind Stage.job _ s).trans (Act.on_ofExcept_bind_ok htext _ s)
  have hid : (submitting e newId submit).jobId.on s = (.ok (.text s.job.id), s) := rfl
  rw [readFailure, Act.on_bind_ok hid, Act.on_bind_ok htold]
  rfl

/-- **Of a job whose tasks have ended** there are metrics, or it is told why it failed. -/
theorem conclude_ended (e : Local) (newId : Act σ String)
    {submit : Option Token → LocalJob.Running σ τ Bool} (d : Descriptor σ τ) {token : Option Token}
    {s s' : Stage σ (LocalJob σ τ)} {results : List LocalJob.TaskResult}
    (h : (submit token).on s = (.ok (LocalJob.failures results).isEmpty, s'))
    (hstate : s'.job.state = LocalJob.finalState results) :
    (LocalJob.failures results = [] ∧ ∃ m,
      Metrics.Summary.ofValue (LocalJob.finalState results).counters.toValue = .ok m ∧
        ((conclude (submitting e newId submit) d token).on s).1 = .ok ⟨d.name, .succeeded m,
          d.begun ++ [d.event .succeeded [("counter_count", .int m.all.length)]]⟩) ∨
    (LocalJob.failures results ≠ [] ∧ ∃ text,
      (LocalJob.finalState results).failure? = some text ∧
        ((conclude (submitting e newId submit) d token).on s).1 = .ok ⟨d.name,
          .failed (.text s'.job.id) (.text text),
          d.begun ++ [d.event .failed [("job_id", .text s'.job.id)]]⟩) := by
  have hsubmit : (submitting e newId submit).submit token = submit token := rfl
  rw [conclude_ok d (hsubmit ▸ h), ← hstate]
  by_cases hnone : LocalJob.failures results = []
  · rw [if_pos (List.isEmpty_iff.mpr hnone)]
    exact .inl ⟨hnone, _, Metrics.Summary.ofValue_toValue _,
      whenSucceeded_fst d rfl (Metrics.Summary.ofValue_toValue _)⟩
  · have hfailure := (LocalJob.failure?_finalState results).trans (if_neg hnone)
    rw [← hstate] at hfailure
    rw [if_neg fun hempty => hnone (List.isEmpty_iff.mp hempty)]
    exact .inr ⟨hnone, _, hfailure, whenFailed_fst d (readFailure_on hfailure)⟩

/-! ### Executions -/

/-- The local engine whose tasks complete in this order. -/
def completing (e : Local) (newId : Act σ String) (order : LocalJob.Order) :
    Engine σ τ (LocalJob σ τ) :=
  submitting e newId (LocalJob.submitWith (LocalJob.runTasksIn order))

theorem completing_listed (e : Local) (newId : Act σ String) :
    (completing e newId .listed : Engine σ τ (LocalJob σ τ)) = e.toEngine newId := by
  have h : LocalJob.submitWith (LocalJob.runTasksIn .listed) =
      (LocalJob.submit : Option Token → LocalJob.Running σ τ Bool) :=
    funext LocalJob.submitWith_listed
  rw [completing, h]
  rfl

/-- **The execution of a built descriptor on a local engine** whose name can be written: tasks and readers
have ordinary failures only, and tasks count by increments only. -/
structure Execution (σ τ : Type) where
  engine : Local
  order : LocalJob.Order
  newId : Act σ String
  config : Config.Flat
  task : TaskClass σ τ
  reader : ReaderClass
  name : Value
  descriptor : Descriptor σ τ
  token : Option Token
  journal : Journal σ
  id : String
  world : σ
  built : Descriptor.build (.this config) (.cls reader) name (.cls task) = .ok descriptor
  named : engine.maxWorkers.isStorable = true
  identified : newId.on journal.world = (.ok id, world)
  ordinary_task : task.Ordinary
  ordinary_reader : reader.Ordinary
  counts : task.Counts

namespace Execution

variable (x : Execution σ τ)

/-- What comes of the execution. -/
def result : Except Failure Outcome :=
  ((execute (some (completing x.engine x.newId x.order)) (some x.descriptor) (.this x.config)
    x.token).on x.journal).1

/-- The state of a job whose tasks ended like this. -/
def stateAfter (outcomes : List (Except Failure Counters)) : JobState :=
  LocalJob.finalState (outcomes.map fun o => o.mapError LocalJob.taskReport)

/-- **What an execution needs of its workers and its caller**: the workers can be had, the caller finds out
whether he is told to stop waiting, and if he is not the workers take the tasks of all splits. -/
def served (splits : List Value) : Except Failure Unit := do
  x.engine.crew.opening
  if ← LocalJob.isInterrupted x.token splits then pure ()
  else (⟨x.task, x.reader, splits⟩ : LocalJob.Plan σ τ).handAll x.engine.pool

/-- **All tasks have ended**, on the splits that the reader planned; their counters can be added up. -/
structure Ended (outcomes : List (Except Failure Counters)) : Prop where
  ran : ∃ splits w, LocalJob.splitsOf x.reader (.this x.config) = .ok splits ∧
    LocalJob.isInterrupted x.token splits = .ok false ∧
    (LocalJob.inPool x.engine.pool
      (LocalJob.runTasksIn x.order ⟨x.task, x.reader, splits⟩ x.config.copy)).on x.world =
        (.ok outcomes, w)
  merges : ∀ d, .ok d ∈ outcomes → ∀ c, ((merge d.toGroups).on c).1 = .ok ()

/-- **What an execution comes to** whose workers take its tasks. There is no other failure and no other
outcome. -/
inductive ComesTo : Except Failure Outcome → Prop where
  | unplanned (f : Failure) (h : LocalJob.splitsOf x.reader (.this x.config) = .error f) :
      ComesTo (.error (.job (.notSubmitted x.descriptor.name
        (EngineFault.unplanned x.id f.message).message (some (.text x.id)))))
  | interrupted (splits : List Value)
      (planned : LocalJob.splitsOf x.reader (.this x.config) = .ok splits)
      (opened : x.engine.crew.opening = .ok ())
      (told : LocalJob.isInterrupted x.token splits = .ok true) :
      ComesTo (.error (.engine (.interrupted x.id)))
  | succeeded (outcomes : List (Except Failure Counters)) (ended : x.Ended outcomes)
      (all : ∀ o ∈ outcomes, ∃ d, o = .ok d) (m : Metrics.Summary)
      (metrics : Metrics.Summary.ofValue (stateAfter outcomes).counters.toValue = .ok m) :
      ComesTo (.ok ⟨x.descriptor.name, .succeeded m, x.descriptor.begun ++
        [x.descriptor.event .succeeded [("counter_count", .int m.all.length)]]⟩)
  | failed (outcomes : List (Except Failure Counters)) (ended : x.Ended outcomes) (f : Failure)
      (some : .error f ∈ outcomes) (text : String)
      (failure : (stateAfter outcomes).failure? = .some text) :
      ComesTo (.ok ⟨x.descriptor.name, .failed (.text x.id) (.text text), x.descriptor.begun ++
        [x.descriptor.event .failed [("job_id", .text x.id)]]⟩)

theorem exists_error_of_failures_ne {outcomes : List (Except Failure Counters)}
    (h : LocalJob.failures (outcomes.map fun o => o.mapError LocalJob.taskReport) ≠ []) :
    ∃ f, .error f ∈ outcomes := by
  by_contra hnone
  refine h (LocalJob.failures_eq_nil.mpr fun o ho => ?_)
  cases o with
  | ok d => exact ⟨d, rfl⟩
  | error f => exact absurd ⟨f, ho⟩ hnone

variable {x} in
/-- The tasks of an execution end, and none of them stops the program. -/
theorem ended_of_ran {splits : List Value} {outcomes : List (Except Failure Counters)} {w : σ}
    (planned : LocalJob.splitsOf x.reader (.this x.config) = .ok splits)
    (waited : LocalJob.isInterrupted x.token splits = .ok false)
    (ran : (LocalJob.inPool x.engine.pool
      (LocalJob.runTasksIn x.order ⟨x.task, x.reader, splits⟩ x.config.copy)).on x.world =
        (.ok outcomes, w)) :
    x.Ended outcomes ∧ splits.length = outcomes.length ∧
      ∀ f, .error f ∈ outcomes → f.isOrdinary = true := by
  have hends := (LocalJob.ends_runTasksIn x.order).of_ran ran
  refine ⟨⟨⟨splits, w, planned, waited, ran⟩, fun d hd c => ?_⟩, hends.length_eq, fun f hf => ?_⟩
  · obtain ⟨split, -, w', hrun⟩ := exists_left_of_forall₂ hends hd
    rw [merge_eq (x.counts.counted_of_run hrun).named]
  · obtain ⟨split, -, w', hrun⟩ := exists_left_of_forall₂ hends hf
    exact x.ordinary_task.run x.ordinary_reader x.config.copy split w' f hrun

/-- The job of an execution as it is when it is submitted. -/
def stage (name : String) (lines : List Line) : Stage σ (LocalJob σ τ) :=
  ⟨⟨x.world, lines⟩, scanJob name x.task x.reader x.engine.crew (.this x.config) x.id⟩

/-- What comes of an execution is what comes of its submission. -/
theorem exists_submission : ∃ name lines ended,
    (LocalJob.submitWith (LocalJob.runTasksIn x.order) x.token).on (x.stage name lines) = ended ∧
    LocalJob.Submits (LocalJob.runTasksIn x.order) x.config x.token (x.stage name lines)
      ended.1 ended.2 ∧
    x.result = ((conclude (completing x.engine x.newId x.order) x.descriptor x.token).on
      (x.stage name lines)).1 := by
  obtain ⟨n, t, r, ht, hr, hd⟩ := exists_of_build x.built
  obtain rfl := ClassArg.cls.inj ht
  obtain rfl := ClassArg.cls.inj hr
  obtain ⟨lines, hexecute⟩ := execute_submitting_on x.engine
    (LocalJob.submitWith (LocalJob.runTasksIn x.order)) x.identified n x.task x.reader x.config
    x.token x.journal.lines
  have hsubmits := LocalJob.submits_on (s := x.stage n lines) (LocalJob.ends_runTasksIn x.order) rfl
    x.token
  refine ⟨n, lines, _, rfl, hsubmits, ?_⟩
  rw [result, hd]
  exact hexecute

variable {x} in
/-- An execution whose workers can be had is served if its caller is told to stop, or else if they take the
tasks. -/
theorem served_of_opened {splits : List Value} {told : Bool} (opened : x.engine.crew.opening = .ok ())
    (heard : LocalJob.isInterrupted x.token splits = .ok told) :
    x.served splits = if told then .ok ()
      else (⟨x.task, x.reader, splits⟩ : LocalJob.Plan σ τ).handAll x.engine.pool := by
  unfold served
  rw [opened, heard]
  rfl

/-- **An execution is served or not**: either it comes to one of the outcomes, or to the failure to serve
it. -/
theorem served_or : (x.ComesTo x.result ∧
      ∀ splits, LocalJob.splitsOf x.reader (.this x.config) = .ok splits → x.served splits = .ok ()) ∨
    ∃ splits f, LocalJob.splitsOf x.reader (.this x.config) = .ok splits ∧
      x.served splits = .error f ∧ x.result = .error (refusal x.descriptor f) := by
  obtain ⟨name, lines, ⟨answer, s'⟩, hsubmit, hsubmits, hresult⟩ := x.exists_submission
  have honly : ∀ {splits}, LocalJob.splitsOf x.reader (.this x.config) = .ok splits →
      x.served splits = .ok () → ∀ splits', LocalJob.splitsOf x.reader (.this x.config) = .ok splits' →
        x.served splits' = .ok () := by
    intro splits hsplits hserved splits' hsplits'
    rw [← Except.ok.inj (hsplits.symm.trans hsplits')]
    exact hserved
  have hplanned : ∀ {p}, (x.stage name lines).job.plan = .ok p → ∃ splits,
      LocalJob.splitsOf x.reader (.this x.config) = .ok splits ∧ ⟨x.task, x.reader, splits⟩ = p :=
    fun plan => LocalJob.exists_splits_of_plan rfl rfl rfl rfl plan
  rw [hresult]
  cases hsubmits with
  | refused f plan =>
    cases hsplits : LocalJob.splitsOf x.reader (.this x.config) with
    | ok splits => cases (LocalJob.plan_eq rfl rfl rfl rfl hsplits).symm.trans plan
    | error f' =>
      have hunplanned := LocalJob.plan_eq_error (j := (x.stage name lines).job) rfl rfl rfl rfl
        hsplits (x.ordinary_reader.splitsOf hsplits)
      obtain rfl := Except.error.inj (plan.symm.trans hunplanned)
      rw [conclude_error x.descriptor hsubmit]
      exact .inl ⟨.unplanned f' hsplits, fun splits h => nomatch h⟩
  | unopened p plan f opening =>
    obtain ⟨splits, hsplits, rfl⟩ := hplanned plan
    have hserved : x.served splits = .error f := bind_eq_error_iff.mpr (.inl opening)
    exact .inr ⟨splits, f, hsplits, hserved, conclude_error x.descriptor hsubmit⟩
  | unheard p outcomes w ran f heard =>
    obtain ⟨splits, hsplits, rfl⟩ := hplanned ran.planned
    have hserved : x.served splits = .error f :=
      bind_eq_error_iff.mpr (.inr ⟨(), ran.opened, bind_eq_error_iff.mpr (.inl heard)⟩)
    exact .inr ⟨splits, f, hsplits, hserved, conclude_error x.descriptor hsubmit⟩
  | interrupted p outcomes w ran told =>
    obtain ⟨splits, hsplits, rfl⟩ := hplanned ran.planned
    rw [conclude_error x.descriptor hsubmit]
    exact .inl ⟨.interrupted splits hsplits ran.opened told,
      honly hsplits (served_of_opened ran.opened told)⟩
  | untaken p outcomes w ran waited f results =>
    obtain ⟨splits, hsplits, rfl⟩ := hplanned ran.planned
    obtain ⟨-, hlength, hordinary⟩ := ended_of_ran hsplits waited ran.on
    -- the tasks themselves have results
    rw [LocalJob.collect_eq hlength (.inr hordinary)] at results
    have hhand : (⟨x.task, x.reader, splits⟩ : LocalJob.Plan σ τ).handAll x.engine.pool = .error f := by
      rcases bind_eq_error_iff.mp results with hhand | ⟨u, -, hresults⟩
      · exact hhand
      · obtain ⟨o, ho, hstop⟩ := exists_of_mapM_error hresults
        obtain ⟨rfl, hstops⟩ := LocalJob.resultOf_eq_error hstop
        cases hstops.symm.trans (hordinary f ho)
    have hserved : x.served splits = .error f := (served_of_opened ran.opened waited).trans hhand
    exact .inr ⟨splits, f, hsplits, hserved, conclude_error x.descriptor hsubmit⟩
  | ended p outcomes w ran waited results taken =>
    obtain ⟨splits, hsplits, rfl⟩ := hplanned ran.planned
    obtain ⟨hended, hlength, -⟩ := ended_of_ran hsplits waited ran.on
    obtain ⟨hhand, hresults⟩ := (LocalJob.collect_eq_ok_iff hlength).mp taken
    have hserved : x.served splits = .ok () := (served_of_opened ran.opened waited).trans hhand
    obtain rfl := LocalJob.results_eq hresults
    refine .inl ⟨?_, honly hsplits hserved⟩
    rcases conclude_ended x.engine x.newId x.descriptor hsubmit rfl with
      ⟨hnone, m, hm, hconclude⟩ | ⟨hsome, text, htext, hconclude⟩
    · exact hconclude ▸ .succeeded outcomes hended (LocalJob.failures_eq_nil.mp hnone) m hm
    · obtain ⟨f, hf⟩ := exists_error_of_failures_ne hsome
      exact hconclude ▸ .failed outcomes hended f hf text htext

variable {x} in
/-- The failure to serve an execution is none of the outcomes. -/
theorem not_comesTo_of_unserved {splits : List Value} {f : Failure}
    (hsplits : LocalJob.splitsOf x.reader (.this x.config) = .ok splits)
    (hserved : x.served splits = .error f) (f' : Failure) : ¬ x.ComesTo (.error f') := by
  intro h
  cases h with
  | unplanned f'' h => cases hsplits.symm.trans h
  | interrupted splits' planned opened told =>
    obtain rfl := Except.ok.inj (hsplits.symm.trans planned)
    cases hserved.symm.trans (served_of_opened opened told)

/-- **What comes of the execution of a built descriptor on a local engine** that is served: its splits cannot
be planned, its caller is told to stop waiting, it succeeds with the metrics of its tasks, or it fails and
tells of them. If it is not served, what comes of it is none of these, but the failure to serve it. Where
tasks complete in the order of the splits this is what the engine itself does. -/
theorem comesTo_result :
    ((∀ splits, LocalJob.splitsOf x.reader (.this x.config) = .ok splits → x.served splits = .ok ()) →
      x.ComesTo x.result) ∧
    (∀ splits f, LocalJob.splitsOf x.reader (.this x.config) = .ok splits →
      x.served splits = .error f →
        x.result = .error (refusal x.descriptor f) ∧ ¬ x.ComesTo x.result) ∧
    (x.order = .listed → x.result =
      ((execute (some (x.engine.toEngine x.newId)) (some x.descriptor) (.this x.config)
        x.token).on x.journal).1) := by
  refine ⟨fun hserved => ?_, fun splits f hsplits hserved => ?_, fun horder => ?_⟩
  · rcases x.served_or with ⟨hcomes, -⟩ | ⟨splits, f, hsplits, hunserved, -⟩
    · exact hcomes
    · cases hunserved.symm.trans (hserved splits hsplits)
  · rcases x.served_or with ⟨-, hall⟩ | ⟨splits', f', hsplits', hserved', hresult⟩
    · cases hserved.symm.trans (hall splits hsplits)
    · obtain rfl := Except.ok.inj (hsplits.symm.trans hsplits')
      obtain rfl := Except.error.inj (hserved.symm.trans hserved')
      exact ⟨hresult, hresult ▸ not_comesTo_of_unserved hsplits hserved _⟩
  · rw [result, horder, completing_listed]

end Execution

/-! ### An execution in which a task fails -/

theorem ordinary_tallying : LocalJob.tallying.Ordinary where
  create _ h := nomatch h
  setup s f h := by
    have hincrement : (increment "job" "tasks" (.int 1)).on s.counters =
        (.ok (), s.counters.add "job" "tasks" 1) :=
      increment_eq_ok_iff.mpr ⟨by decide, by decide, ⟨1, rfl⟩, rfl⟩
    have hsetup : (LocalJob.tallying.setup.on s).1 = .ok () := congrArg Prod.fst hincrement
    cases hsetup.symm.trans h
  map _ := Act.failsWith_pure ()
  cleanup := Act.failsWith_pure ()

theorem ordinary_splitting (splits : List Value) : (LocalJob.splitting splits).Ordinary where
  create _ _ h := nomatch h
  splits _ r f hr h := by
    cases hr
    cases h
  read _ r split f hr h := by
    cases hr
    dsimp only at h
    split at h
    · cases h
    · cases h
      rfl

/-- The execution of tasks that count themselves on these splits. -/
def tallyingExecution (engine : Local) (named : engine.maxWorkers.isStorable = true)
    (splits : List Value) : Execution Unit Unit where
  engine
  order := .listed
  newId := pure "job"
  config := Config.Flat.empty
  task := LocalJob.tallying
  reader := LocalJob.splitting splits
  name := .text " tally "
  descriptor := descriptorOf "tally" LocalJob.tallying (LocalJob.splitting splits)
  token := none
  journal := .start ()
  id := "job"
  world := ()
  built := rfl
  named
  identified := rfl
  ordinary_task := ordinary_tallying
  ordinary_reader := ordinary_splitting splits
  counts := LocalJob.counts_tallying

def fourThreads : Local := ⟨.thread, .int 4, .int 1, none⟩

/-- More processes than a queue is made for. -/
def manyProcesses : Local := ⟨.process, .int 2147483647, .int 1, none⟩

/-- Of two splits the second one cannot be read, and the outcome tells of its task. Where there are too many
workers no task is run. -/
theorem execution_tells_of_task_or_workers :
    (∃ o, (tallyingExecution fourThreads (by decide) [.int 1, .none]).result = .ok o ∧
      o.result = .failed (.text "job")
        (.text "Task 1 failed: ValueError: split must not be None\n<traceback>")) ∧
    (tallyingExecution manyProcesses (by decide) [.int 1]).result =
      .error (.engine .tooManyProcesses) := by
  constructor
  · have h := (tallyingExecution fourThreads (by decide) [.int 1, .none]).comesTo_result.1 (by
      rintro splits ⟨⟩
      rfl)
    have houtcomes : ∀ {outcomes},
        (tallyingExecution fourThreads (by decide) [.int 1, .none]).Ended outcomes →
          outcomes = [LocalJob.tallied (.int 1), LocalJob.tallied .none] := by
      rintro outcomes ⟨⟨splits, w, planned, -, ran⟩, -⟩
      obtain rfl := Except.ok.inj planned
      exact LocalJob.eq_map_of_forall₂ ((LocalJob.ends_runTasksIn .listed).of_ran ran)
        fun _ _ _ => LocalJob.ends_tallying
    generalize (tallyingExecution fourThreads (by decide) [.int 1, .none]).result = result at h
    cases h with
    | unplanned f h => cases h
    | interrupted splits planned opened told =>
      obtain rfl := Except.ok.inj planned
      cases told
    | succeeded outcomes ended all =>
      obtain rfl := houtcomes ended
      obtain ⟨d, hd⟩ := all (LocalJob.tallied .none) (by simp)
      cases hd
    | failed outcomes ended f some text failure =>
      obtain rfl := houtcomes ended
      refine ⟨_, rfl, ?_⟩
      obtain rfl : "Task 1 failed: ValueError: split must not be None\n<traceback>" = text :=
        Option.some.inj failure
      rfl
  · exact ((tallyingExecution manyProcesses (by decide) [.int 1]).comesTo_result.2.1
      [.int 1] (.engine .tooManyProcesses) rfl rfl).1

end ScanJobs.Job
