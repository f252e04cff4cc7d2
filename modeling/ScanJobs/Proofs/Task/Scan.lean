import ScanJobs.Proofs.Registry.Bound
import ScanJobs.Proofs.Task.Run
import ScanJobs.Task.Scan

/-! # Scan tasks count each row once

A task whose job counts rows (`CountsRows`) ends with its counters if the job fails on none of them:
each row was counted once by the engine and once by the task, and what the job counted is added up
(`run_ok`). If the job fails on a row, the task fails (`run_error`). -/

namespace ScanJobs.ScanTask

open Counters Job

/-! ### Jobs that count rows -/

/-- What a job counts for each row; nothing if it fails on the row. -/
abbrev Tally := Row → Option (List (String × Value))

/-- What a job counts for a row that a task shows it. -/
def Tally.shown (tally : Tally) (p : Presentation) (r : Row) : Option (List (String × Value)) :=
  (r.present p).toOption.bind tally

theorem shown_eq_some_iff {tally : Tally} {p : Presentation} {r : Row}
    {incs : List (String × Value)} :
    tally.shown p r = some incs ↔ ∃ r', r.present p = .ok r' ∧ tally r' = some incs := by
  unfold Tally.shown
  cases r.present p with
  | error f => simp [Except.toOption]
  | ok r' => simp [Except.toOption]

/-- Makes these increments, in turn. -/
def countAll (incs : List (String × Value)) : Act Counters Unit :=
  incs.forM fun e => Metrics.incrementCustom e.1 e.2

/-- **A job that counts rows.** It can be made, its configuration can be read, and it starts and ends
without failure and without counting. What it does on a row depends on the row alone: it makes the
increments of the tally, or fails. What it `keeps` between calls may change. -/
structure CountsRows (b : Behaviour) (p : Presentation) (config : Config.Flat) (tally : Tally)
    (keeps : Option Value → Prop) : Prop where
  isJob : b.foreign = none
  create : b.create = .ok ()
  start : ∃ app, jobConfig b.root config = .ok app ∧ ∀ cs, ∃ b',
    (b.start app).on ⟨none, cs, none⟩ = (.ok (), b') ∧ keeps b'.kept ∧ b'.counters = cs
  counts : ∀ r incs, tally r = some incs → ∀ kept cs, keeps kept → ∃ b',
    (b.process p r).on ⟨kept, cs, none⟩ = (.ok (), b') ∧ keeps b'.kept ∧
      (countAll incs).on cs = (.ok (), b'.counters)
  fails : ∀ r, tally r = none → ∀ kept cs, keeps kept → ∃ f b',
    (b.process p r).on ⟨kept, cs, none⟩ = (.error f, b')
  finish : ∀ kept cs, keeps kept → ∃ b',
    b.finish.on ⟨kept, cs, none⟩ = (.ok (), b') ∧ b'.counters = cs

/-! ### What is added -/

/-- The groups of the counters of scan jobs. -/
def scanGroups : List String :=
  [Task.group, Metrics.standardGroup, Metrics.customGroup]

/-- What increments come to under a name. -/
def sumOf (incs : List (String × Value)) (name : String) : Int :=
  (incs.map fun e => if e.1 = name then amount e.2 else 0).sum

/-- What a job adds with its increments. -/
def custom (incs : List (String × Value)) (g n : String) : Int :=
  if Metrics.customGroup = g then sumOf incs n else 0

theorem adds_countAll {incs : List (String × Value)} {cs cs' : Counters}
    (h : (countAll incs).on cs = (.ok (), cs')) : Adds scanGroups (custom incs) cs cs' := by
  induction incs generalizing cs with
  | nil =>
    cases h
    exact ⟨fun g n => by simp [custom, sumOf], id⟩
  | cons e incs ih =>
    rcases Act.on_bind_cases h with ⟨f, -, hf⟩ | ⟨u, cs₁, hfirst, hrest⟩
    · cases hf
    · have hmem : Metrics.customGroup ∈ scanGroups := by simp [scanGroups]
      have hall := (adds_increment hmem hfirst).trans (ih hrest)
      refine ⟨fun g n => ?_, hall.within⟩
      have hsum : sumOf (e :: incs) n = (if e.1 = n then amount e.2 else 0) + sumOf incs n :=
        List.sum_cons
      rw [hall.value, custom, custom, single, hsum]
      by_cases hg : Metrics.customGroup = g <;> simp [hg]

/-- **What a row adds**: one to the rows that the engine counts, one to those that the task counts,
and what the job counts. -/
def rowAdds (incs : List (String × Value)) (g n : String) : Int :=
  single Task.group Task.inputRecords 1 g n + custom incs g n +
    single Metrics.standardGroup Metrics.success 1 g n

/-- What rows add. -/
def rowsAdd (tally : Tally) (p : Presentation) (rows : List Row) (g n : String) : Int :=
  (rows.map fun r => rowAdds ((tally.shown p r).getD []) g n).sum

theorem rowsAdd_append (tally : Tally) (p : Presentation) (rows rows' : List Row) (g n : String) :
    rowsAdd tally p (rows ++ rows') g n = rowsAdd tally p rows g n + rowsAdd tally p rows' g n := by
  rw [rowsAdd, List.map_append, List.sum_append]
  rfl

/-- What every row adds the same is added as often as there are rows. -/
theorem rowsAdd_of_forall {g n : String} {k : Int} (h : ∀ incs, rowAdds incs g n = k) (tally : Tally)
    (p : Presentation) (rows : List Row) : rowsAdd tally p rows g n = rows.length * k := by
  have hrow : (fun r => rowAdds ((tally.shown p r).getD []) g n) = fun _ => k :=
    funext fun r => h _
  rw [rowsAdd, hrow, List.map_const', List.sum_replicate, nsmul_eq_mul]

theorem rowsAdd_custom (tally : Tally) (p : Presentation) (rows : List Row) (n : String) :
    rowsAdd tally p rows Metrics.customGroup n =
      (rows.map fun r => sumOf ((tally.shown p r).getD []) n).sum := by
  have hrow : ∀ incs, rowAdds incs Metrics.customGroup n = sumOf incs n := fun incs => by
    simp [rowAdds, single, custom, Task.group, Metrics.customGroup, Metrics.standardGroup]
  simp only [rowsAdd, hrow]

/-! ### One row -/

section

variable {σ : Type} {h : Host σ} {p : Presentation} {c : JobClass} {config : Config.Flat}
  {tally : Tally} {keeps : Option Value → Prop}

theorem map_of_ok {job : Instance} {r : Row} {f f' : Frame σ State}
    (hjob : ready? f.task = some job) (hp : (process h p job r).on f = (.ok (), f')) :
    (map h p r).on f = (count Metrics.success).on f' := by
  rw [map, Act.on_read_bind, hjob]
  exact Act.on_attempt_bind hp _

theorem map_of_error {job : Instance} {r : Row} {f f' : Frame σ State} {e : Failure}
    (hjob : ready? f.task = some job) (hp : (process h p job r).on f = (.error e, f')) :
    ∃ e', ((map h p r).on f).1 = .error e' := by
  have hmap : (map h p r).on f =
      (if e.isOrdinary then count Metrics.failure >>= fun _ => throw e else throw e).on f' := by
    rw [map, Act.on_read_bind, hjob]
    exact Act.on_attempt_bind hp _
  rw [hmap]
  -- the failure is counted first, unless it stops the program
  split
  · rw [Act.on_bind]
    split
    · exact ⟨e, rfl⟩
    · next e' _ _ => exact ⟨e', rfl⟩
  · exact ⟨e, rfl⟩

/-- The frame of a task that was set up. -/
def ready (w : σ) (config : Config.Flat) (c : JobClass) (kept : Option Value) (cs : Counters) :
    Frame σ State :=
  ⟨w, config, ⟨some ⟨c, kept⟩, .allowed⟩, cs⟩

theorem ready?_ready (w : σ) (kept : Option Value) (cs : Counters) :
    ready? (ready w config c kept cs).task = some ⟨c, kept⟩ := rfl

/-- A job that was set up keeps what it has kept and counts with its task. -/
theorem onJob_on {α : Type} {a : Act Bench α} {kept : Option Value} {cs : Counters}
    {result : Except Failure α} {b' : Bench} (ha : a.on ⟨kept, cs, none⟩ = (result, b')) (w : σ)
    (config : Config.Flat) (c : JobClass) :
    (onJob ⟨c, kept⟩ a).on (ready w config c kept cs) =
      (result, ready w config c b'.kept b'.counters) := by
  have hjob : (onJob ⟨c, kept⟩ a).on (ready w config c kept cs) =
      ((a.on ⟨kept, cs, none⟩).1, ready w config c (a.on ⟨kept, cs, none⟩).2.kept
        (a.on ⟨kept, cs, none⟩).2.counters) := rfl
  rw [hjob, ha]

/-- It sees the row as the task shows it. -/
theorem process_on {r r' : Row} (hr : r.present p = .ok r') (w : σ) (kept : Option Value)
    (cs : Counters) {result : Except Failure Unit} {b' : Bench}
    (hb : ((h.behaviour c).process p r').on ⟨kept, cs, none⟩ = (result, b')) :
    (process h p ⟨c, kept⟩ r).on (ready w config c kept cs) =
      (result, ready w config c b'.kept b'.counters) := by
  rw [process, Act.on_ofExcept_bind_ok hr]
  exact onJob_on hb w config c

theorem count_success_on (config : Config.Flat) (c : JobClass) (w : σ) (kept : Option Value)
    (cs : Counters) :
    ∃ cs', (count Metrics.success).on (ready w config c kept cs) =
        (.ok (), ready w config c kept cs') ∧
      Adds scanGroups (single Metrics.standardGroup Metrics.success 1) cs cs' := by
  have hincrement : (Counters.increment Metrics.standardGroup Metrics.success (.int 1)).on cs =
      (.ok (), cs.add Metrics.standardGroup Metrics.success 1) :=
    increment_eq_ok_iff.mpr ⟨by decide, by decide, ⟨1, rfl⟩, rfl⟩
  have hrun : (count Metrics.success).on (ready w config c kept cs) =
      (((Counters.increment Metrics.standardGroup Metrics.success (.int 1)).on cs).1,
        ready w config c kept
          ((Counters.increment Metrics.standardGroup Metrics.success (.int 1)).on cs).2) := rfl
  exact ⟨_, by rw [hrun, hincrement], adds_increment (by simp [scanGroups]) hincrement⟩

theorem mapRow_on (r : Row) (w : σ) (kept : Option Value) (cs : Counters) :
    (Task.mapRow (tasks h p) r).on (ready w config c kept cs) =
      (map h p r).on (ready w config c kept (cs.add Task.group Task.inputRecords 1)) := by
  have hadd : (Frame.counting (Act.change fun cs => cs.add Task.group Task.inputRecords 1)).on
      (ready w config c kept cs) =
        (.ok (), ready w config c kept (cs.add Task.group Task.inputRecords 1)) := rfl
  rw [Task.mapRow, Act.on_bind_ok hadd]
  rfl

/-- **A row on which the job does not fail** is counted by the engine and by the task, beside what the
job counts. -/
theorem mapRow_ok (hb : CountsRows (h.behaviour c) p config tally keeps) {r : Row}
    {incs : List (String × Value)} (ht : tally.shown p r = some incs) (w : σ) {kept : Option Value}
    (hk : keeps kept) (cs : Counters) :
    ∃ kept' cs', keeps kept' ∧ Adds scanGroups (rowAdds incs) cs cs' ∧
      (Task.mapRow (tasks h p) r).on (ready w config c kept cs) =
        (.ok (), ready w config c kept' cs') := by
  obtain ⟨r', hr, htally⟩ := shown_eq_some_iff.mp ht
  obtain ⟨b', hprocess, hk', hcount⟩ :=
    hb.counts r' incs htally kept (cs.add Task.group Task.inputRecords 1) hk
  obtain ⟨cs', hsuccess, hadds⟩ := count_success_on config c w b'.kept b'.counters
  refine ⟨b'.kept, cs', hk', ?_, ?_⟩
  · have hfirst : Adds scanGroups (single Task.group Task.inputRecords 1) cs _ :=
      adds_add (by simp [scanGroups]) (by decide) 1 cs
    exact (hfirst.trans (adds_countAll hcount)).trans hadds
  · rw [mapRow_on]
    exact (map_of_ok (ready?_ready w kept _) (process_on hr w kept _ hprocess)).trans hsuccess

/-- **A task fails on a row on which its job fails.** -/
theorem mapRow_error (hb : CountsRows (h.behaviour c) p config tally keeps) {r : Row}
    (ht : tally.shown p r = none) (w : σ) {kept : Option Value} (hk : keeps kept) (cs : Counters) :
    ∃ e, ((Task.mapRow (tasks h p) r).on (ready w config c kept cs)).1 = .error e := by
  rw [mapRow_on]
  -- the row cannot be shown, or the job fails on what it is shown
  have hfails : ∃ e f', (process h p ⟨c, kept⟩ r).on
      (ready w config c kept (cs.add Task.group Task.inputRecords 1)) = (.error e, f') := by
    cases hr : r.present p with
    | error e =>
      refine ⟨e, ready w config c kept (cs.add Task.group Task.inputRecords 1), ?_⟩
      rw [process, hr]
      rfl
    | ok r' =>
      have htally : tally r' = none := by
        rw [Tally.shown, hr] at ht
        exact ht
      obtain ⟨e, b', hprocess⟩ := hb.fails r' htally kept _ hk
      exact ⟨e, _, process_on hr w kept _ hprocess⟩
  obtain ⟨e, f', hprocess⟩ := hfails
  exact map_of_error (ready?_ready w kept _) hprocess

/-! ### All rows of a feed -/

/-- **Rows on which the job does not fail** are counted one by one. -/
theorem mapRows_ok (hb : CountsRows (h.behaviour c) p config tally keeps) (w : σ) {rows : List Row}
    (hrows : ∀ r ∈ rows, tally.shown p r ≠ none) {kept : Option Value} (hk : keeps kept)
    (cs : Counters) :
    ∃ kept' cs', keeps kept' ∧ Adds scanGroups (rowsAdd tally p rows) cs cs' ∧
      (rows.forM (Task.mapRow (tasks h p))).on (ready w config c kept cs) =
        (.ok (), ready w config c kept' cs') := by
  -- what the job has kept and counted changes from row to row
  induction rows generalizing kept cs with
  | nil => exact ⟨kept, cs, hk, .refl cs, rfl⟩
  | cons r rows ih =>
    obtain ⟨incs, ht⟩ := Option.ne_none_iff_exists'.mp (hrows r (by simp))
    obtain ⟨kept₁, cs₁, hk₁, hadds, hfirst⟩ := mapRow_ok hb ht w hk cs
    obtain ⟨kept', cs', hk', hadds', hrest⟩ :=
      ih (fun r' hr' => hrows r' (List.mem_cons_of_mem _ hr')) hk₁ cs₁
    refine ⟨kept', cs', hk', ?_, (Act.on_bind_ok hfirst).trans hrest⟩
    have hall := hadds.trans hadds'
    refine ⟨fun g n => ?_, hall.within⟩
    rw [hall.value, rowsAdd, rowsAdd, List.map_cons, List.sum_cons, ht, Option.getD_some]

theorem mapRows_error (hb : CountsRows (h.behaviour c) p config tally keeps) (w : σ)
    {rows : List Row} (hrows : ∃ r ∈ rows, tally.shown p r = none) {kept : Option Value}
    (hk : keeps kept) (cs : Counters) :
    ∃ e, ((rows.forM (Task.mapRow (tasks h p))).on (ready w config c kept cs)).1 = .error e := by
  induction rows generalizing kept cs with
  | nil =>
    obtain ⟨r, hr, -⟩ := hrows
    cases hr
  | cons r rows ih =>
    cases ht : tally.shown p r with
    | none =>
      obtain ⟨e, he⟩ := mapRow_error hb ht w hk cs
      exact ⟨e, congrArg Prod.fst (Act.on_bind_error (Prod.ext he rfl))⟩
    | some incs =>
      obtain ⟨kept₁, cs₁, hk₁, -, hfirst⟩ := mapRow_ok hb ht w hk cs
      have hrest : ∃ r' ∈ rows, tally.shown p r' = none := by
        obtain ⟨r', hr', ht'⟩ := hrows
        rcases List.mem_cons.mp hr' with rfl | hr'
        · cases ht.symm.trans ht'
        · exact ⟨r', hr', ht'⟩
      obtain ⟨e, he⟩ := ih hrest hk₁ cs₁
      exact ⟨e, (congrArg Prod.fst (Act.on_bind_ok hfirst)).trans he⟩

/-! ### The whole task -/

/-- A task that finds the name makes a new job of the class. -/
theorem makeJob_of_bound {w : σ} {name : String} {f : Factory} (hname : jobName config = .ok name)
    (hfactory : (h.registry w).get? name = some f) (t : State) (cs : Counters) :
    (makeJob h).on ⟨w, config, t, cs⟩ = (Act.ofExcept (h.newJob f.makes) >>= fun job =>
      Act.change (fun f : Frame σ State => { f with task.job := some job }) >>= fun _ =>
        pure job).on ⟨w, config, t, cs⟩ := by
  have hfound : (Frame.onWorld (h.create name (config.get? Config.Keys.standard.jobModule))).on
      (⟨w, config, t, cs⟩ : Frame σ State) = (h.newJob f.makes, ⟨w, config, t, cs⟩) := by
    rw [Frame.onWorld, Act.on_zoom, Host.create_of_bound hfactory]
  rw [makeJob, Act.on_read_bind, Act.on_ofExcept_bind_ok hname, Act.on_bind, hfound, Act.on_bind,
    Act.on_ofExcept]

theorem makeJob_on {w : σ} {name : String} {f : Factory} (hname : jobName config = .ok name)
    (hfactory : (h.registry w).get? name = some f)
    (hcreate : (h.behaviour f.makes).create = .ok ()) :
    (makeJob h).on ⟨w, config, .fresh, Counters.empty⟩ =
      (.ok ⟨f.makes, none⟩, ⟨w, config, ⟨some ⟨f.makes, none⟩, .notYet⟩, Counters.empty⟩) := by
  have hnew : h.newJob f.makes = .ok ⟨f.makes, none⟩ := by
    rw [Host.newJob, hcreate]
    rfl
  rw [makeJob_of_bound hname hfactory, Act.on_ofExcept_bind_ok hnew]
  rfl

/-- **A task makes the job that the configuration names, and starts it.** -/
theorem setup_on {w : σ} {name : String} {f : Factory} (hname : jobName config = .ok name)
    (hfactory : (h.registry w).get? name = some f)
    (hb : CountsRows (h.behaviour f.makes) p config tally keeps) :
    ∃ kept, keeps kept ∧ (setup h none).on ⟨w, config, .fresh, Counters.empty⟩ =
      (.ok (), ready w config f.makes kept Counters.empty) := by
  obtain ⟨app, happ, hstart⟩ := hb.start
  obtain ⟨b', hb', hk, hcs⟩ := hstart Counters.empty
  have hcheck : (h.behaviour f.makes).check "job_worker_iteration_start" = .ok () := by
    rw [Behaviour.check, hb.isJob]
  refine ⟨b'.kept, hk, ?_⟩
  rw [setup, Act.on_bind_ok (makeJob_on hname hfactory hb.create), startJob,
    Act.on_bind_ok (Act.on_change _ _)]
  refine (Act.on_ofExcept_bind_ok hcheck _ _).trans ((Act.on_read_bind _ _ _).trans
    ((Act.on_ofExcept_bind_ok happ _ _).trans ((onJob_on hb' w config f.makes).trans ?_)))
  rw [hcs]

theorem cleanup_on (hb : CountsRows (h.behaviour c) p config tally keeps) (w : σ)
    {kept : Option Value} (hk : keeps kept) (cs : Counters) :
    ∃ kept', (cleanup h).on (ready w config c kept cs) = (.ok (), ready w config c kept' cs) := by
  obtain ⟨b', hb', hcs⟩ := hb.finish kept cs hk
  refine ⟨b'.kept, ?_⟩
  rw [cleanup, Act.on_read_bind, ready?_ready]
  refine (onJob_on hb' w config c).trans ?_
  rw [hcs]

/-- What a task adds for the rows of its split. -/
def taskAdds (tally : Tally) (p : Presentation) (rows : List Row) (g n : String) : Int :=
  rowsAdd tally p rows g n + single Task.group Task.mapTasks 1 g n

/-- **It does not matter how rows are cut into splits**, but that each split has a task. -/
theorem sum_taskAdds (tally : Tally) (p : Presentation) (feeds : List (List Row)) (g n : String) :
    (feeds.map fun rows => taskAdds tally p rows g n).sum =
      rowsAdd tally p feeds.flatten g n + feeds.length * single Task.group Task.mapTasks 1 g n := by
  induction feeds with
  | nil => simp [rowsAdd]
  | cons rows feeds ih =>
    rw [List.map_cons, List.sum_cons, ih, List.flatten_cons, rowsAdd_append, taskAdds,
      List.length_cons, Nat.cast_succ]
    ring

/-! ### What a task keeps -/

/-- **A property of a task that its hooks do not touch**: it has nothing to do with the counters and with
what the job keeps. -/
structure Lasting (Q : Frame σ State → Prop) : Prop where
  counters : ∀ f cs, Q f → Q { f with counters := cs }
  kept : ∀ f job kept, f.task.job = some job → Q f →
    Q { f with task.job := some { job with kept } }

theorem lasting_world (w : σ) : Lasting fun f : Frame σ State => f.world = w where
  counters _ _ hw := hw
  kept _ _ _ _ hw := hw

theorem job_of_ready {s : State} {job : Instance} (hjob : ready? s = some job) : s.job = some job := by
  unfold ready? at hjob
  split at hjob
  · cases hjob
  · exact hjob

variable {Q : Frame σ State → Prop}

theorem Lasting.keeps_counting (hQ : Lasting Q) {α : Type} (a : Act Counters α) :
    (Frame.counting a).Keeps Q :=
  fun f hf => hQ.counters f _ hf

theorem Lasting.after_onJob (hQ : Lasting Q) {α : Type} (a : Act Bench α) {f : Frame σ State}
    {job : Instance} (hjob : f.task.job = some job) (hf : Q f) : Q ((onJob job a).on f).2 :=
  hQ.counters _ _ (hQ.kept f job _ hjob hf)

theorem Lasting.keeps_count (hQ : Lasting Q) (metric : String) : (count metric).Keeps Q := by
  refine .bind (Act.keeps_read _) fun refusal => ?_
  cases refusal with
  | none => exact hQ.keeps_counting _
  | some f => exact Act.keeps_throw f

theorem Lasting.after_process (hQ : Lasting Q) (r : Row) {f : Frame σ State} {job : Instance}
    (hjob : f.task.job = some job) (hf : Q f) : Q ((process h p job r).on f).2 := by
  cases hr : r.present p with
  | error e =>
    rw [process, hr]
    exact hf
  | ok r' =>
    rw [process, Act.on_ofExcept_bind_ok hr]
    exact hQ.after_onJob _ hjob hf

theorem Lasting.keeps_map (hQ : Lasting Q) (r : Row) : (map h p r).Keeps Q := by
  intro f hf
  rw [map, Act.on_read_bind]
  cases hjob : ready? f.task with
  | none => exact hf
  | some job =>
    have hprocess : Q ((process h p job r).on f).2 := hQ.after_process r (job_of_ready hjob) hf
    dsimp only
    rw [Act.on_bind_ok (Act.on_attempt _ f)]
    -- the outcome decides what is counted, if anything
    cases ((process h p job r).on f).1 with
    | ok u => exact hQ.keeps_count _ _ hprocess
    | error e =>
      have hfailed : (if e.isOrdinary then count Metrics.failure >>= fun _ => throw e
          else throw e : Act (Frame σ State) Unit).Keeps Q := by
        split
        · exact (hQ.keeps_count _).bind fun _ => Act.keeps_throw e
        · exact Act.keeps_throw e
      exact hfailed _ hprocess

theorem Lasting.keeps_mapRow (hQ : Lasting Q) (r : Row) : (Task.mapRow (tasks h p) r).Keeps Q :=
  (hQ.keeps_counting _).bind fun _ => hQ.keeps_map r

theorem Lasting.keeps_cleanup (hQ : Lasting Q) : (cleanup h).Keeps Q := by
  intro f hf
  rw [cleanup, Act.on_read_bind]
  cases hjob : ready? f.task with
  | none => exact hf
  | some job => exact hQ.after_onJob _ (job_of_ready hjob) hf

/-- **Tasks keep what their hooks do not touch** while they map rows and when they are cleaned up. -/
theorem Lasting.keeps_mapFeed (hQ : Lasting Q) (feed : Feed) :
    ((Task.mapFeed (tasks h p) feed).andFinally (tasks h p).cleanup).Keeps Q :=
  (Task.keeps_mapFeed hQ.keeps_mapRow feed).andFinally hQ.keeps_cleanup

/-! ### The task runs -/

variable {reader : ReaderClass} {made : Reader} {split : Value} {rows : List Row} {w : σ}
  {name : String} {f : Factory}

/-- What a task does once its reader is made is told by what it does in its frame. -/
theorem run_of_life (hreader : reader.create (.this config) = .ok made) {result : Except Failure Unit}
    {frame : Frame σ State}
    (hlife : (Task.life (tasks h p) (made.read split)).on ⟨w, config, .fresh, Counters.empty⟩ =
      (result, frame)) :
    (Task.run (tasks h p) reader config split).on w =
      (result.map fun _ => frame.counters.add Task.group Task.mapTasks 1, frame.world) := by
  have hframe : (Task.inFrame config State.fresh (Task.life (tasks h p) (made.read split))).on w =
      (result.map fun _ => frame.counters, frame.world) := by
    rw [Task.inFrame, Act.on_ofFun, hlife]
  rw [Task.run, Act.on_ofExcept_bind_ok hreader]
  refine (Act.on_ofExcept_bind_ok rfl _ _).trans ?_
  cases result with
  | ok u => exact (Act.on_bind_ok hframe).trans rfl
  | error e => exact Act.on_bind_error hframe

/-- **A task ends with its counters** if its job fails on no row. -/
theorem run_ok (hreader : reader.create (.this config) = .ok made)
    (hread : made.read split = ⟨rows, none⟩) (hname : jobName config = .ok name)
    (hfactory : (h.registry w).get? name = some f)
    (hb : CountsRows (h.behaviour f.makes) p config tally keeps)
    (hrows : ∀ r ∈ rows, tally.shown p r ≠ none) :
    ∃ cs, (Task.run (tasks h p) reader config split).on w = (.ok cs, w) ∧
      Adds scanGroups (taskAdds tally p rows) Counters.empty cs := by
  obtain ⟨kept, hk, hsetup⟩ := setup_on hname hfactory hb
  obtain ⟨kept₁, cs, hk₁, hadds, hmap⟩ := mapRows_ok hb w hrows hk Counters.empty
  obtain ⟨kept₂, hcleanup⟩ := cleanup_on hb w hk₁ cs
  have hfeed : (Task.mapFeed (tasks h p) ⟨rows, none⟩).on
      (ready w config f.makes kept Counters.empty) = (.ok (), ready w config f.makes kept₁ cs) := by
    rw [Task.mapFeed, Act.on_bind_ok hmap]
    rfl
  have hlife : (Task.life (tasks h p) (made.read split)).on ⟨w, config, .fresh, Counters.empty⟩ =
      (.ok (), ready w config f.makes kept₂ cs) := by
    rw [hread]
    exact (Act.on_bind_ok hsetup).trans (Act.on_andFinally_ok hfeed hcleanup)
  refine ⟨_, run_of_life hreader hlife, ?_⟩
  exact hadds.trans (adds_add (by simp [scanGroups]) (by decide) 1 cs)

theorem run_error (hreader : reader.create (.this config) = .ok made)
    (hread : made.read split = ⟨rows, none⟩) (hname : jobName config = .ok name)
    (hfactory : (h.registry w).get? name = some f)
    (hb : CountsRows (h.behaviour f.makes) p config tally keeps)
    (hrows : ∃ r ∈ rows, tally.shown p r = none) :
    ∃ e, (Task.run (tasks h p) reader config split).on w = (.error e, w) := by
  obtain ⟨kept, hk, hsetup⟩ := setup_on hname hfactory hb
  obtain ⟨e, hmap⟩ := mapRows_error hb w hrows hk Counters.empty
  have hfeed : ((Task.mapFeed (tasks h p) ⟨rows, none⟩).on
      (ready w config f.makes kept Counters.empty)).1 = .error e := by
    rw [Task.mapFeed, Act.on_bind_error (Prod.ext hmap rfl)]
  -- the cleanup may fail as well, and then it is this failure that counts
  obtain ⟨e', he'⟩ := Act.on_andFinally_error (tasks h p).cleanup hfeed
  have hlife : (Task.life (tasks h p) (made.read split)).on ⟨w, config, .fresh, Counters.empty⟩ =
      (.error e', (((Task.mapFeed (tasks h p) ⟨rows, none⟩).andFinally (tasks h p).cleanup).on
        (ready w config f.makes kept Counters.empty)).2) := by
    rw [hread]
    exact (Act.on_bind_ok hsetup).trans (Prod.ext he' rfl)
  refine ⟨e', (run_of_life hreader hlife).trans ?_⟩
  rw [(lasting_world w).keeps_mapFeed ⟨rows, none⟩ _ rfl]
  rfl

end

end ScanJobs.ScanTask
