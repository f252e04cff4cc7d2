import ScanJobs.Proofs.Engine.Completion
import ScanJobs.Proofs.Task.Scan

/-! # Scan tasks find their job

A scan task knows its job by name only. If the name is bound where the task runs, the task does what a
task does that makes a new job of the class without looking anything up (`agreeOn_life`): nothing is
imported, and no other class has a part in it. It leaves the world alone, so that all tasks of a job do the
same, however many there are and in whatever order they end (`runsJob_of_bound`). -/

namespace ScanJobs.ScanTask

open Engine Job

variable {σ : Type}

/-! ### Tasks that look up nothing -/

/-- Sets up a task with a new job of a class, for which it needs no name. -/
def setupNew (h : Host σ) (c : JobClass) : Act (Frame σ State) Unit := do
  let job ← Act.ofExcept (h.newJob c)
  Act.change fun f => { f with task.job := some job }
  startJob h none job

/-- **The class of tasks that run new jobs of a class**, and look up nothing. -/
def tasksOf (h : Host σ) (p : Presentation) (c : JobClass) : TaskClass σ State :=
  { tasks h p with setup := setupNew h c }

/-- **The frame of a task in this world**, whose job is of the class if there is one. -/
structure HasJob (w : σ) (config : Config.Flat) (c : JobClass) (f : Frame σ State) : Prop where
  world : f.world = w
  config : f.config = config
  job : ∀ job, f.task.job = some job → job.jobClass = c

variable {h h' : Host σ} {p : Presentation} {config : Config.Flat} {w : σ} {c : JobClass}
  {name : String} {f : Factory}

theorem hasJob_fresh (cs : Counters) : HasJob w config c ⟨w, config, State.fresh, cs⟩ :=
  ⟨rfl, rfl, nofun⟩

theorem lasting_hasJob : Lasting (HasJob w config c) where
  counters _ _ hf := ⟨hf.world, hf.config, hf.job⟩
  kept f job kept hjob hf := by
    refine ⟨hf.world, hf.config, fun job' hjob' => ?_⟩
    obtain rfl := Option.some.inj hjob'
    exact hf.job job hjob

/-! ### Setting up -/

theorem jobClass_of_newJob {job : Instance} (hjob : h.newJob c = .ok job) : job.jobClass = c := by
  obtain ⟨_, -, rfl⟩ := map_eq_ok_iff.mp hjob
  rfl

/-- **A task that finds the name is set up with a new job of the class.** -/
theorem agreeOn_setup (hname : jobName config = .ok name)
    (hbound : (h.registry w).get? name = some f) :
    Act.AgreeOn (HasJob w config c) (setup h none) (setupNew h f.makes) := by
  rintro ⟨w', config', t, cs⟩ ⟨hw, hconfig, -⟩
  obtain rfl : w' = w := hw
  obtain rfl : config' = config := hconfig
  rw [setup, Act.on_bind, makeJob_of_bound hname hbound, ← Act.on_bind, setupNew]
  cases h.newJob f.makes <;> rfl

/-- Only the class of the job has a part in starting it. -/
theorem agreeOn_setupNew (hb : h'.behaviour c = h.behaviour c) {Q : Frame σ State → Prop} :
    Act.AgreeOn Q (setupNew h c) (setupNew h' c) := by
  have hnew : h'.newJob c = h.newJob c := by rw [Host.newJob, Host.newJob, hb]
  unfold setupNew
  rw [hnew]
  refine Act.agreeOn_ofExcept_bind fun job hjob => ?_
  have hstart : startJob h' none job = startJob h none job := by
    rw [startJob, startJob, jobClass_of_newJob hjob, hb]
  rw [hstart]
  exact Act.agreeOn_refl _

theorem keeps_startJob (refusal : Option Failure) {job : Instance} (hjob : job.jobClass = c) :
    (startJob h refusal job).Keeps (HasJob w config c) := by
  refine .bind (fun _ hf => ⟨hf.world, hf.config, hf.job⟩) fun _ => ?_
  refine .bind (Act.keeps_ofExcept _) fun _ => .bind (Act.keeps_read _) fun _ => ?_
  refine .bind (Act.keeps_ofExcept _) fun app f hf => ⟨hf.world, hf.config, ?_⟩
  rintro _ ⟨⟩
  exact hjob

theorem keeps_setupNew : (setupNew h c).Keeps (HasJob w config c) := by
  refine Act.keeps_ofExcept_bind fun job hjob => .bind (fun f hf => ⟨hf.world, hf.config, ?_⟩) fun _ =>
    keeps_startJob none (jobClass_of_newJob hjob)
  rintro _ ⟨⟩
  exact jobClass_of_newJob hjob

/-! ### The whole life of a task -/

theorem agreeOn_map (hb : h'.behaviour c = h.behaviour c) (r : Row) :
    Act.AgreeOn (HasJob w config c) (map h p r) (map h' p r) := by
  intro f hf
  rw [map, map, Act.on_read_bind, Act.on_read_bind]
  cases hjob : ready? f.task with
  | none => rfl
  | some job =>
    have hprocess : process h p job r = process h' p job r := by
      rw [process, process, hf.job job (job_of_ready hjob), hb]
    dsimp only
    rw [hprocess]

theorem agreeOn_cleanup (hb : h'.behaviour c = h.behaviour c) :
    Act.AgreeOn (HasJob w config c) (cleanup h) (cleanup h') := by
  intro f hf
  rw [cleanup, cleanup, Act.on_read_bind, Act.on_read_bind]
  cases hjob : ready? f.task with
  | none => rfl
  | some job =>
    dsimp only
    rw [hf.job job (job_of_ready hjob), hb]

/-- **A task that finds the name of its job lives like one that needs no name**, whatever else there is
beside the class that the name leads to. -/
theorem agreeOn_life (hname : jobName config = .ok name)
    (hbound : (h.registry w).get? name = some f) (hb : h'.behaviour f.makes = h.behaviour f.makes)
    (feed : Feed) :
    Act.AgreeOn (HasJob w config f.makes) (Task.life (tasks h p) feed)
      (Task.life (tasksOf h' p f.makes) feed) := by
  have hsetup : Act.AgreeOn (HasJob w config f.makes) (setup h none) (setupNew h' f.makes) :=
    (agreeOn_setup hname hbound).trans (agreeOn_setupNew hb)
  have hrow : ∀ r, Act.AgreeOn (HasJob w config f.makes) (Task.mapRow (tasks h p) r)
      (Task.mapRow (tasksOf h' p f.makes) r) := fun r =>
    (Act.agreeOn_refl _).bind (lasting_hasJob.keeps_counting _) fun _ => agreeOn_map hb r
  have hkeep : ∀ r, (Task.mapRow (tasks h p) r).Keeps (HasJob w config f.makes) :=
    lasting_hasJob.keeps_mapRow
  refine hsetup.bind (hsetup.keeps keeps_setupNew) fun _ => ?_
  exact (Task.agreeOn_mapFeed hrow hkeep feed).andFinally (Task.keeps_mapFeed hkeep feed)
    (agreeOn_cleanup hb)

/-- **It leaves the world alone, and its job is of the class.** -/
theorem keeps_life (hname : jobName config = .ok name)
    (hbound : (h.registry w).get? name = some f) (feed : Feed) :
    (Task.life (tasks h p) feed).Keeps (HasJob w config f.makes) :=
  ((agreeOn_setup hname hbound).keeps keeps_setupNew).bind fun _ =>
    lasting_hasJob.keeps_mapFeed feed

/-! ### All tasks of a job -/

/-- **Tasks run new jobs of the class that a name leads to.** The configuration has the name, and it is
found whatever an import would do. What a task does is what is done by one that looks up nothing and makes
a new job of the class, wherever that is the same class; the job stays one of the class. The tasks leave
the world alone, so that each finds it like the first. -/
structure RunsJob (h : Host σ) (p : Presentation) (config : Config.Flat) (w : σ) (name : String)
    (f : Factory) : Prop where
  named : jobName config = .ok name
  found : ∀ importModule, (({ h with importModule } : Host σ).resolve name
    (config.get? Config.Keys.standard.jobModule)).on w = (.ok f, w)
  runs : ∀ h' : Host σ, h'.behaviour f.makes = h.behaviour f.makes → ∀ reader split,
    (Task.run (tasks h p) reader config split).on w =
      (Task.run (tasksOf h' p f.makes) reader config split).on w
  job : ∀ feed job, ((Task.life (tasks h p) feed).on
    ⟨w, config, .fresh, Counters.empty⟩).2.task.job = some job → job.jobClass = f.makes
  alone : ∀ reader split, ((Task.run (tasks h p) reader config split).on w).2 = w
  all : ∀ order reader splits, (LocalJob.runTasksIn order ⟨tasks h p, reader, splits⟩ config).on w =
    (.ok (splits.map fun s => ((Task.run (tasks h p) reader config s).on w).1), w)

/-- **A task whose job has a bound name runs a new job of the class.** -/
theorem runsJob_of_bound (hname : jobName config = .ok name)
    (hbound : (h.registry w).get? name = some f) : RunsJob h p config w name f := by
  have hfresh : ∀ t, (tasks h p).create = .ok t → t = .fresh := fun t ht => (Except.ok.inj ht).symm
  have halone : ∀ reader split, ((Task.run (tasks h p) reader config split).on w).2 = w := by
    intro reader split
    refine Task.keeps_run (fun t ht feed => ?_) reader split w rfl
    rw [hfresh t ht]
    exact (keeps_life hname hbound feed _ (hasJob_fresh _)).world
  have hfound : ∀ importModule, (({ h with importModule } : Host σ).resolve name
      (config.get? Config.Keys.standard.jobModule)).on w = (.ok f, w) := fun importModule =>
    Host.resolve_of_bound (h := { h with importModule }) hbound _
  refine ⟨hname, hfound, fun h' hb reader split => ?_, fun feed => ?_, halone,
    fun order reader splits => ?_⟩
  · have hcreate : (tasksOf h' p f.makes).create = (tasks h p).create := rfl
    refine Task.agreeOn_run hcreate (fun t ht feed => ?_) reader split w rfl
    rw [hfresh t ht]
    exact agreeOn_life hname hbound hb feed _ (hasJob_fresh _)
  · exact (keeps_life hname hbound feed _ (hasJob_fresh _)).job
  · exact LocalJob.runTasksIn_on order fun s _ => Prod.ext rfl (halone reader s)

end ScanJobs.ScanTask
