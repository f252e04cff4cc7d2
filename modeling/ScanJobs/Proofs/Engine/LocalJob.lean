import ScanJobs.Engine.Local
import ScanJobs.Job.Execute
import ScanJobs.Proofs.Engine.Results
import ScanJobs.Proofs.Engine.Submission
import ScanJobs.Proofs.Metrics.Summary

/-! # What comes of a local job

A local job succeeds if none of its tasks fails, with the counters of all of them added up
(`execute_ok`), and has no metrics otherwise (`execute_error`). This is told here for tasks that leave
the world alone. -/

namespace ScanJobs.Engine.LocalJob

open Counters

variable {σ τ : Type}

/-! ### The tasks -/

/-- Tasks that leave the world alone do so one after the other. -/
theorem runTasks_on {p : Plan σ τ} {config : Config.Flat} {w : σ}
    {result : Value → Except Failure Counters}
    (h : ∀ s ∈ p.splits, (Task.run p.task p.reader config s).on w = (result s, w)) :
    (runTasks p config).on w = (.ok (p.splits.map result), w) := by
  refine Act.on_mapM fun s hs => ?_
  rw [Act.on_attempt, h s hs]

theorem inPool_on {α : Type} {a : Act σ α} {w : σ} {x : Except Failure α} (pool : Pool)
    (h : a.on w = (x, w)) : (inPool pool a).on w = (x, w) := by
  cases pool with
  | thread => exact h
  | process =>
    have hprocess : (inPool .process a).on w = ((a.on w).1, w) := rfl
    rw [hprocess, h]

/-! ### Submission -/

variable {j : LocalJob σ τ} {p : Plan σ τ} {c : Config.Flat} {token : Option Token} {w : σ}
  {result : Value → Except Failure Counters}

/-- The tasks end as they do by themselves. -/
theorem eq_of_ran {lines : List Line} (hplan : j.plan = .ok p)
    (htasks : ∀ s ∈ p.splits, (Task.run p.task p.reader c.copy s).on w = (result s, w))
    {p' : Plan σ τ} {outcomes : List (Except Failure Counters)} {w' : σ}
    (ran : Ran runTasks c ⟨⟨w, lines⟩, j⟩ p' outcomes w') :
    p' = p ∧ outcomes = p.splits.map result ∧ w' = w := by
  obtain rfl := Except.ok.inj (hplan.symm.trans ran.planned)
  have hon := ran.on
  rw [inPool_on _ (runTasks_on htasks)] at hon
  cases hon
  exact ⟨rfl, rfl, rfl⟩

/-- **A job succeeds if its workers take all tasks and none of these fails**, and its counters are theirs
added up. -/
theorem submit_ok (hplan : j.plan = .ok p) (hopened : j.crew.opening = .ok ())
    (hhanded : p.handAll j.crew.pool = .ok ()) (hconfig : j.config = .this c)
    (htoken : ∀ t ∈ token, t.requested = .ok false) {counters : Value → Counters}
    (htasks : ∀ s ∈ p.splits,
      (Task.run p.task p.reader c.copy s).on w = (.ok (counters s), w)) (lines : List Line) :
    ∃ lines', (submit token).on ⟨⟨w, lines⟩, j⟩ = (.ok true, ⟨⟨w, lines'⟩,
      { j with state := .succeeded (sumCounters ((p.splits.map counters).map .ok)) }⟩) := by
  have hresults : (p.splits.map fun s => (.ok (counters s) : Except Failure Counters)).mapM resultOf =
      .ok ((p.splits.map counters).map .ok) := by
    rw [mapM_eq_ok_iff, List.map_map, List.map_map, List.map_map]
    rfl
  have hnone : failures ((p.splits.map counters).map (.ok : Counters → TaskResult)) = [] := by
    rw [failures_eq_nil_iff]
    intro r hr
    obtain ⟨c', -, rfl⟩ := List.mem_map.mp hr
    exact ⟨c', rfl⟩
  have htaken := (collect_eq_ok_iff (by rw [List.length_map])).mpr ⟨hhanded, hresults⟩
  have hsubmits := submits_on (s := ⟨⟨w, lines⟩, j⟩) ends_runTasks hconfig token
  rw [submitWith_runTasks] at hsubmits
  generalize (submit token).on ⟨⟨w, lines⟩, j⟩ = ended at hsubmits
  obtain ⟨told, stage⟩ := ended
  cases hsubmits with
  | refused f plan => cases hplan.symm.trans plan
  | unopened p' plan f opening => cases hopened.symm.trans opening
  | unheard p' outcomes w' ran f heard => cases (not_told htoken p'.splits).symm.trans heard
  | interrupted p' outcomes w' ran stop => cases (not_told htoken p'.splits).symm.trans stop
  | untaken p' outcomes w' ran _ f stops =>
    obtain ⟨rfl, rfl, -⟩ := eq_of_ran hplan htasks ran
    cases htaken.symm.trans stops
  | ended p' outcomes w' ran _ results taken lines' =>
    obtain ⟨rfl, rfl, rfl⟩ := eq_of_ran hplan htasks ran
    obtain rfl := Except.ok.inj (htaken.symm.trans taken)
    refine ⟨lines', ?_⟩
    rw [finalState, hnone]
    rfl

/-- **A job that succeeds was taken by its workers, and none of its tasks failed.** -/
theorem of_submit_ok (hplan : j.plan = .ok p) (hconfig : j.config = .this c)
    (htasks : ∀ s ∈ p.splits, (Task.run p.task p.reader c.copy s).on w = (result s, w))
    {lines : List Line} {st : Stage σ (LocalJob σ τ)}
    (h : (submit token).on ⟨⟨w, lines⟩, j⟩ = (.ok true, st)) :
    j.crew.opening = .ok () ∧ p.handAll j.crew.pool = .ok () ∧ ∀ s ∈ p.splits, ∃ d, result s = .ok d := by
  have hsubmits := submits_on (s := ⟨⟨w, lines⟩, j⟩) ends_runTasks hconfig token
  rw [submitWith_runTasks, h] at hsubmits
  generalize hsucceeds : (.ok true : Except Failure Bool) = told at hsubmits
  cases hsubmits with
  | refused => cases hsucceeds
  | unopened => cases hsucceeds
  | unheard => cases hsucceeds
  | interrupted => cases hsucceeds
  | untaken => cases hsucceeds
  | ended p' outcomes w' ran _ results taken =>
    obtain ⟨rfl, rfl, -⟩ := eq_of_ran hplan htasks ran
    obtain ⟨hhanded, hresults⟩ := (collect_eq_ok_iff (by rw [List.length_map])).mp taken
    refine ⟨ran.opened, hhanded, fun s hs => ?_⟩
    -- a task that fails leaves its report
    have hnone := List.isEmpty_iff.mp (Except.ok.inj hsucceeds).symm
    obtain ⟨r, hr⟩ := exists_of_mapM hresults (List.mem_map_of_mem hs)
    have hmem : r ∈ results := (mem_of_mapM hresults).mpr ⟨_, List.mem_map_of_mem hs, hr⟩
    obtain ⟨c', rfl⟩ := failures_eq_nil_iff.mp hnone r hmem
    cases hresult : result s with
    | ok d => exact ⟨d, rfl⟩
    | error e =>
      rw [hresult, resultOf] at hr
      split at hr <;> cases hr

end ScanJobs.Engine.LocalJob

namespace ScanJobs.Job

open Engine Counters

variable {σ τ η : Type} {e : Local} {newId : Act σ String}

/-! ### Execution -/

/-- The descriptor of a scan job. -/
def descriptorOf (name : String) (task : TaskClass σ τ) (reader : ReaderClass) : Descriptor σ τ :=
  ⟨.text name, .cls task, .cls reader, Descriptor.noReduceTasks⟩

/-- A job of the local engine takes settings as the job itself does. -/
theorem assign_on (e : Local) (newId : Act σ String) {settings : List (Setting σ τ)}
    {j j' : LocalJob σ τ}
    (h : settings.foldlM LocalJob.assign j = .ok j') (journal : Journal σ) :
    (settings.forM (e.toEngine newId).assign).on ⟨journal, j⟩ = (.ok (), ⟨journal, j'⟩) := by
  induction settings generalizing j with
  | nil =>
    cases h
    rfl
  | cons s settings ih =>
    rw [List.foldlM_cons] at h
    obtain ⟨j₁, hfirst, hrest⟩ := bind_eq_ok_iff.mp h
    have hassign : ((e.toEngine newId).assign s).on (⟨journal, j⟩ : Stage σ (LocalJob σ τ)) =
        (.ok (), ⟨journal, j₁⟩) := by
      have hchange : (Act.tryChange fun j : LocalJob σ τ => j.assign s).on j = (.ok (), j₁) := by
        rw [Act.on_tryChange, hfirst]
      change (Stage.onJob (Act.tryChange fun j : LocalJob σ τ => j.assign s)).on _ = _
      rw [Stage.onJob, Act.on_zoom, hchange]
    exact (Act.on_bind_ok hassign).trans (ih hrest)

/-- A new job that was set up as a scan job. -/
def scanJob (name : String) (task : TaskClass σ τ) (reader : ReaderClass) (crew : Crew)
    (config : Given Config.Flat) (id : String) : LocalJob σ τ where
  id
  config
  crew
  name := .text name
  task := some task
  reader := some reader
  outputs := Descriptor.slots.foldl
    (fun outputs s => LocalJob.setOutput outputs s (some .marker)) Table.empty
  reduceTasks := .int 0
  state := .define

/-- **A new job takes all settings of a scan job.** -/
theorem settings_eq (name : String) (task : TaskClass σ τ) (reader : ReaderClass) (crew : Crew)
    (config : Given Config.Flat) (id : String) :
    (descriptorOf name task reader).settings.foldlM LocalJob.assign
      (LocalJob.create crew config id) = .ok (scanJob name task reader crew config id) := by
  rw [Descriptor.settings, List.foldlM_append]
  -- of all settings only the number of reduce tasks is checked
  exact bind_eq_ok_iff.mpr ⟨_, rfl,
    bind_eq_ok_iff.mpr ⟨_, LocalJob.assign_no_reduceTasks rfl, rfl⟩⟩

theorem create_on {w₀ w : σ} {id : String} (hid : newId.on w₀ = (.ok id, w)) (c : Config.Flat)
    (lines : List Line) :
    ((e.toEngine newId : Engine σ τ (LocalJob σ τ)).create (.this c)).on ⟨w₀, lines⟩ =
      (.ok (LocalJob.create e.crew (.this c) id), ⟨w, lines⟩) := by
  have hnew : (Journal.onWorld newId).on ⟨w₀, lines⟩ = (.ok id, ⟨w, lines⟩) := by
    rw [Journal.onWorld, Act.on_zoom, hid]
  exact Act.on_bind_ok hnew

/-- Without an id there is no job. -/
theorem exists_id_of_execute {d : Descriptor σ τ} {c : Config.Flat} {token : Option Token}
    {j : Journal σ} {o : Outcome}
    (h : ((execute (some (e.toEngine newId)) (some d) (.this c) token).on j).1 = .ok o) :
    ∃ id w, newId.on j.world = (.ok id, w) := by
  cases hid : newId.on j.world with
  | mk result w =>
    cases result with
    | ok id => exact ⟨id, w, rfl⟩
    | error f =>
      have hnew : (Journal.onWorld newId).on j = (.error f, { j with world := w }) := by
        rw [Journal.onWorld, Act.on_zoom, hid]
      have hcreate : ((e.toEngine newId : Engine σ τ (LocalJob σ τ)).create (.this c)).on j =
          (.error f, { j with world := w }) := Act.on_bind_error hnew
      have hexecute : (execute (some (e.toEngine newId)) (some d) (.this c) token).on j =
          (.error f, { j with world := w }) := Act.on_bind_error hcreate
      rw [hexecute] at h
      cases h

/-- What is done with a job that was set up: it is submitted, and the outcome is told. -/
def conclude (engine : Engine σ τ η) (d : Descriptor σ τ) (token : Option Token) :
    Act (Stage σ η) Outcome := do
  if ← submitJob engine d token then whenSucceeded engine d else whenFailed engine d

/-- The local engine with another way to submit its jobs. -/
def submitting (e : Local) (newId : Act σ String)
    (submit : Option Token → LocalJob.Running σ τ Bool) : Engine σ τ (LocalJob σ τ) :=
  { e.toEngine newId with submit }

variable {submit : Option Token → LocalJob.Running σ τ Bool}

theorem carryOut_on (e : Local) (newId : Act σ String) (name : String) (task : TaskClass σ τ)
    (reader : ReaderClass) (crew : Crew) (config : Given Config.Flat) (id : String)
    (token : Option Token) (w : σ) (lines : List Line) :
    ∃ lines', (carryOut (submitting e newId submit) (descriptorOf name task reader) token).on
        ⟨⟨w, lines⟩, LocalJob.create crew config id⟩ =
      (conclude (submitting e newId submit) (descriptorOf name task reader) token).on
        ⟨⟨w, lines'⟩, scanJob name task reader crew config id⟩ := by
  have hsettings := assign_on e newId
    (settings_eq name task reader crew config id) ⟨w, lines⟩
  have hnote : ∀ (text : String) (j : LocalJob σ τ), (note .info text).on ⟨⟨w, lines⟩, j⟩ =
      (.ok (), ⟨⟨w, lines ++ [⟨.info, text⟩]⟩, j⟩) := fun _ _ => rfl
  exact ⟨_, (Act.on_bind_ok hsettings).trans (Act.on_bind_ok (hnote _ _))⟩

/-- **What comes of a scan job is what comes of its submission**, in whatever way it is submitted. -/
theorem execute_submitting_on (e : Local) (submit : Option Token → LocalJob.Running σ τ Bool)
    {w₀ w : σ} {id : String} (hid : newId.on w₀ = (.ok id, w)) (name : String)
    (task : TaskClass σ τ) (reader : ReaderClass) (c : Config.Flat) (token : Option Token)
    (lines : List Line) :
    ∃ lines', ((execute (some (submitting e newId submit)) (some (descriptorOf name task reader))
        (.this c) token).on ⟨w₀, lines⟩).1 =
      ((conclude (submitting e newId submit) (descriptorOf name task reader) token).on
        ⟨⟨w, lines'⟩, scanJob name task reader e.crew (.this c) id⟩).1 := by
  obtain ⟨lines', hcarry⟩ :=
    carryOut_on e newId name task reader e.crew (.this c) id token w lines
  have hexecute : (execute (some (submitting e newId submit)) (some (descriptorOf name task reader))
      (.this c) token).on ⟨w₀, lines⟩ =
        (withJob (LocalJob.create e.crew (.this c) id)
          (carryOut (submitting e newId submit) (descriptorOf name task reader) token)).on
            ⟨w, lines⟩ :=
    Act.on_bind_ok (create_on hid c lines)
  refine ⟨lines', ?_⟩
  rw [hexecute, withJob, Act.on_ofFun, hcarry]

theorem execute_on {w₀ w : σ} {id : String} (hid : newId.on w₀ = (.ok id, w)) (name : String)
    (task : TaskClass σ τ) (reader : ReaderClass) (c : Config.Flat) (token : Option Token)
    (lines : List Line) :
    ∃ lines', ((execute (some (e.toEngine newId)) (some (descriptorOf name task reader))
        (.this c) token).on ⟨w₀, lines⟩).1 =
      ((conclude (e.toEngine newId) (descriptorOf name task reader) token).on
        ⟨⟨w, lines'⟩, scanJob name task reader e.crew (.this c) id⟩).1 :=
  execute_submitting_on e LocalJob.submit hid name task reader c token lines

theorem metrics_of_whenFailed {engine : Engine σ τ η} {d : Descriptor σ τ} {s s' : Stage σ η}
    {o : Outcome} (h : (whenFailed engine d).on s = (.ok o, s')) (m : Metrics.Summary) :
    o.metrics ≠ .ok m := by
  rcases Act.on_bind_cases h with ⟨f, -, hf⟩ | ⟨told, s₁, -, h⟩
  · cases hf
  rcases Act.on_bind_cases h with ⟨f, -, hf⟩ | ⟨_, s₂, -, h⟩
  · cases hf
  rcases Act.on_bind_cases h with ⟨f, -, hf⟩ | ⟨_, s₃, -, h⟩
  · cases hf
  obtain ⟨ho, -⟩ := Prod.mk.inj h
  obtain rfl := Except.ok.inj ho
  cases told <;> exact nofun

/-- A job is submitted to the engine as it is, but for the failures. -/
theorem submitJob_on (engine : Engine σ τ η) (d : Descriptor σ τ) {token : Option Token}
    {s s' : Stage σ η} {b : Bool} :
    (submitJob engine d token).on s = (.ok b, s') ↔ (engine.submit token).on s = (.ok b, s') := by
  have hattempt : (Act.attempt (engine.submit token)).on s =
      (.ok ((engine.submit token).on s).1, ((engine.submit token).on s).2) := Act.on_attempt ..
  rw [submitJob, Act.on_bind_ok hattempt]
  cases hsubmit : (engine.submit token).on s with
  | mk result s₁ => cases result <;> simp

/-- A job whose counters have metrics succeeds with them. -/
theorem whenSucceeded_fst {engine : Engine σ τ η} (d : Descriptor σ τ) {s s' : Stage σ η}
    {v : Value} {m : Metrics.Summary} (hcounters : engine.counters.on s = (.ok v, s'))
    (hm : Metrics.Summary.ofValue v = .ok m) :
    ((whenSucceeded engine d).on s).1 = .ok ⟨d.name, .succeeded m,
      d.begun ++ [d.event .succeeded [("counter_count", Value.int m.all.length)]]⟩ := by
  rw [whenSucceeded, Act.on_bind_ok hcounters, Act.on_ofExcept_bind_ok hm]
  rfl

theorem metrics_of_whenSucceeded {d : Descriptor σ τ} {s : Stage σ (LocalJob σ τ)}
    {m : Metrics.Summary} (h : Metrics.Summary.ofValue s.job.state.counters.toValue = .ok m) :
    ∃ o, ((whenSucceeded (e.toEngine newId) d).on s).1 = .ok o ∧ o.metrics = .ok m := by
  have hcounters : (e.toEngine newId : Engine σ τ (LocalJob σ τ)).counters.on s =
      (.ok s.job.state.counters.toValue, s) := rfl
  exact ⟨_, whenSucceeded_fst d hcounters h, rfl⟩

variable {name : String} {task : TaskClass σ τ} {reader : ReaderClass} {c : Config.Flat}
  {token : Option Token} {w₀ w : σ} {id : String} {splits : List Value}

/-- **A scan job of the local engine has metrics if its workers take all tasks and none of these fails**:
those of the counters of all tasks, added up. -/
theorem execute_ok (name : String) (hid : newId.on w₀ = (.ok id, w))
    (hsplits : LocalJob.splitsOf reader (.this c) = .ok splits) (hopened : e.crew.opening = .ok ())
    (hhanded : (⟨task, reader, splits⟩ : LocalJob.Plan σ τ).handAll e.pool = .ok ())
    (htoken : ∀ t ∈ token, t.requested = .ok false) {counters : Value → Counters}
    (htasks : ∀ s ∈ splits, (Task.run task reader c.copy s).on w = (.ok (counters s), w))
    (lines : List Line) :
    ∃ o m, ((execute (some (e.toEngine newId)) (some (descriptorOf name task reader))
        (.this c) token).on ⟨w₀, lines⟩).1 = .ok o ∧ o.metrics = .ok m ∧
      Metrics.Summary.ofValue
        (LocalJob.sumCounters ((splits.map counters).map .ok)).toValue = .ok m := by
  obtain ⟨lines', hexecute⟩ := execute_on (e := e) hid name task reader c token lines
  have hplan : (scanJob name task reader e.crew (.this c) id).plan = .ok ⟨task, reader, splits⟩ :=
    LocalJob.plan_eq rfl rfl rfl rfl hsplits
  obtain ⟨lines₁, hsubmit⟩ := LocalJob.submit_ok hplan hopened hhanded rfl htoken htasks lines'
  have hsubmitted :=
    (submitJob_on (e.toEngine newId) (descriptorOf name task reader)).mpr hsubmit
  rw [conclude, Act.on_bind_ok hsubmitted] at hexecute
  obtain ⟨o, ho, hm⟩ := metrics_of_whenSucceeded (Metrics.Summary.ofValue_toValue _)
  exact ⟨o, _, hexecute.trans ho, hm, Metrics.Summary.ofValue_toValue _⟩

/-- **It has none otherwise.** -/
theorem of_execute_ok (hid : newId.on w₀ = (.ok id, w))
    (hsplits : LocalJob.splitsOf reader (.this c) = .ok splits)
    {result : Value → Except Failure Counters}
    (htasks : ∀ s ∈ splits, (Task.run task reader c.copy s).on w = (result s, w))
    {lines : List Line} {o : Outcome}
    (ho : ((execute (some (e.toEngine newId)) (some (descriptorOf name task reader))
        (.this c) token).on ⟨w₀, lines⟩).1 = .ok o) {m : Metrics.Summary} (hm : o.metrics = .ok m) :
    e.crew.opening = .ok () ∧
      (⟨task, reader, splits⟩ : LocalJob.Plan σ τ).handAll e.pool = .ok () ∧
      ∀ s ∈ splits, ∃ d, result s = .ok d := by
  obtain ⟨lines', hexecute⟩ := execute_on (e := e) hid name task reader c token lines
  have hplan : (scanJob name task reader e.crew (.this c) id).plan = .ok ⟨task, reader, splits⟩ :=
    LocalJob.plan_eq rfl rfl rfl rfl hsplits
  rw [hexecute] at ho
  rcases Act.on_bind_cases (Prod.ext ho rfl) with ⟨f, -, hf⟩ | ⟨b, s₁, hsubmitted, hconclude⟩
  · cases hf
  · -- a job that has metrics has succeeded
    have hsubmit := (submitJob_on _ _).mp hsubmitted
    cases b with
    | true => exact LocalJob.of_submit_ok hplan rfl htasks hsubmit
    | false => exact absurd hm (metrics_of_whenFailed hconclude m)

end ScanJobs.Job
