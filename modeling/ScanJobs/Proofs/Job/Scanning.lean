import ScanJobs.Proofs.Engine.LocalJob
import ScanJobs.Proofs.Job.Workers

/-! # A scan counts each row once

A run of a registered job that counts rows succeeds exactly if the job can be submitted and fails on no
row (`scanned_ok_iff`). Its metrics are then the numbers of rows and of splits and the sums of what the
job counts (`Counted`). So it does not matter how the rows are cut into splits, nor in which order they
come (`each_row_counted_once`). -/

namespace ScanJobs.Job

open Engine Counters Text Config

/-! ### A registered job -/

theorem isBlank_listName (taskClass label : String) :
    isBlank (Descriptor.listName taskClass label) = false := by
  have hbrackets : Solid ("[" ++ label ++ "]") :=
    Solid.append ⟨by decide, by decide⟩ label ⟨by decide, by decide⟩
  have hb := hbrackets.isBlank_eq
  unfold isBlank at hb ⊢
  rw [Descriptor.listName, String.append_assoc, String.append_assoc, String.toList_append,
    ← String.append_assoc, List.all_append, hb, Bool.and_false]

theorem checkPairing_of_merge {app : Given Application} {root : Given Schema.Node} {keys : Keys}
    {g g' : Given Flat} {w : Option View} (h : (merge app root keys).on g = (.ok w, g')) :
    checkPairing app root = .ok () := by
  rcases Act.on_bind_cases h with ⟨f, -, hf⟩ | ⟨u, g₁, hpairing, -⟩
  · cases hf
  · exact (Prod.mk.inj hpairing).1

section

variable {σ τ η : Type} {h : Host σ} {task : TaskClass σ τ} {cls : JobClass}
  {app : Given Application} {s : Desk σ} {c : Given Flat} {j : Journal σ} {reader : ReaderClass}
  {token : Option Token}

/-- A request that can be merged is prepared. -/
theorem prepare_on {root : Given Schema.Node} {c₁ c₀ : Flat} {w : Option View}
    (hmerge : (merge app root Keys.standard).on (.this c₁) = (.ok w, .this c₀)) {name : String}
    (hname : isBlank name = false) {entries : List (String × String)}
    (hentries : ∀ e ∈ entries, isBlank e.1 = false) :
    (Request.prepare ⟨app, root, .cls reader, .text name, .cls task⟩ entries).on (.this c₁) =
      (.ok (descriptorOf (strip name) task reader), .this (c₀.putAll entries)) := by
  have hnamed : Descriptor.nameOf (.text name) = .ok (strip name) := by
    change (if isBlank name then _ else _) = _
    rw [hname]
    rfl
  have hbuild : Descriptor.build (.this c₁) (.cls reader) (.text name) (.cls task) =
      .ok (descriptorOf (strip name) task reader) := by
    rw [Descriptor.build, hnamed]
    rfl
  exact (Act.on_read_bind _ _ _).trans ((Act.on_read_bind _ _ _).trans
    ((Act.on_ofExcept_bind_ok hbuild _ _).trans ((Act.on_bind_ok hmerge).trans
      (Act.on_bind_ok (writeAll_on hentries c₀)))))

theorem executeWith_on (task : TaskClass σ τ) (reader : ReaderClass) {root : Given Schema.Node}
    {c₁ c₀ : Flat} {w : Option View}
    (hmerge : (merge app root Keys.standard).on (.this c₁) = (.ok w, .this c₀)) {name : String}
    (hname : isBlank name = false) {entries : List (String × String)}
    (hentries : ∀ e ∈ entries, isBlank e.1 = false) (engine : Engine σ τ η) (token : Option Token)
    (j : Journal σ) :
    ((executeWith engine ⟨app, root, .cls reader, .text name, .cls task⟩ entries token).on
        ⟨.this c₁, j⟩).1 =
      ((execute (some engine) (some (descriptorOf (strip name) task reader))
        (.this (c₀.putAll entries)) token).on j).1 := by
  have hprepared : (Desk.onConfig (Request.prepare ⟨app, root, .cls reader, .text name, .cls task⟩
      entries)).on (⟨.this c₁, j⟩ : Desk σ) =
        (.ok (descriptorOf (strip name) task reader), ⟨.this (c₀.putAll entries), j⟩) := by
    rw [on_onConfig, prepare_on hmerge hname hentries]
  exact congrArg Prod.fst (Act.on_bind_ok hprepared)

/-- **A registered job is executed** with the configuration that was prepared for it. -/
theorem runRegistered_on (hr : Registered h task (some cls) app s c j) (engine : Engine σ τ η)
    (reader : ReaderClass) (token : Option Token) :
    ((runRegistered h engine task (some cls) app (.cls reader) token).on s).1 =
      ((execute (some engine) (some (descriptorOf (strip (Descriptor.listName task.name
        (h.behaviour cls).label)) task reader)) c token).on j).1 >>= Outcome.metrics := by
  obtain ⟨_, root, name, j₀, w, c₀, ⟨⟩, hroot, hname, hmerge, rfl, hlog⟩ := hr
  obtain ⟨c₁, hc₁⟩ : ∃ c₁, s.config = .this c₁ := by
    rcases merge_cases solid_standard.1 (isBlank_standard (by simp [Keys.reserved])) hmerge with
      hsame | ⟨-, -, c₁, -, -, -, hc₁, -⟩
    · exact ⟨c₀, hsame.symm⟩
    · exact ⟨c₁, hc₁⟩
  obtain ⟨config, journal⟩ := s
  subst hc₁
  have hnamed : (Desk.onJournal (h.preflight (some cls))).on (⟨.this c₁, journal⟩ : Desk σ) =
      (.ok name, ⟨.this c₁, j₀⟩) := by
    rw [on_onJournal, hname]
  have hlogged : (Desk.onJournal (Journal.log .info ("Running scan job " ++ name ++ " as " ++
      Descriptor.listName task.name (h.behaviour cls).label))).on (⟨.this c₁, j₀⟩ : Desk σ) =
        (.ok (), ⟨.this c₁, j⟩) := by
    rw [on_onJournal, hlog]
  have hexecute := executeWith_on task reader hmerge
    (isBlank_listName task.name (h.behaviour cls).label) (isBlank_entriesFor cls name) engine token j
  have hrun : (runRegistered h engine task (some cls) app (.cls reader) token).on
      ⟨.this c₁, journal⟩ = (executeWith engine ⟨app, root, .cls reader,
        .text (Descriptor.listName task.name (h.behaviour cls).label), .cls task⟩
        (entriesFor cls name) token >>= fun o => Act.ofExcept o.metrics).on ⟨.this c₁, j⟩ :=
    (Act.on_read_bind _ _ _).trans ((Act.on_ofExcept_bind_ok hroot _ _).trans
      ((Act.on_ofExcept_bind_ok (checkPairing_of_merge hmerge) _ _).trans
        ((Act.on_bind_ok hnamed).trans (Act.on_bind_ok hlogged))))
  rw [hrun, Act.on_bind_ofExcept, hexecute]
  rfl

/-- **A run that succeeds has submitted a registered job.** -/
theorem registered_of_ok {engine : Engine σ τ η} {m : Metrics.Summary}
    (hm : ((runRegistered h engine task (some cls) app (.cls reader) token).on s).1 = .ok m) :
    ∃ c j, Registered h task (some cls) app s (.this c) j := by
  cases runRegistered_submits_once h engine task (some cls) app (.cls reader) token s with
  | refused f j hrun =>
    have h' : (runRegistered h engine task (some cls) app (.cls reader) token).on s =
      (.error f, ⟨s.config, j⟩) := hrun engine.create
    rw [h'] at hm
    cases hm
  | submitted c j ready answer failed hrun =>
    have hready := ready
    obtain ⟨_, root, name, j₀, w, c₀, -, -, -, -, rfl, -⟩ := ready
    exact ⟨_, j, hready⟩

end

/-! ### What is assumed of a scan -/

section

variable {σ : Type}

/-- What comes of a run of a job over rows, or over vertices. -/
def scanned (h : Host σ) (engine : Engine σ ScanTask.State (LocalJob σ ScanTask.State))
    (p : Presentation) (cls : JobClass) (app : Given Application) (reader : ReaderClass)
    (token : Option Token) (s : Desk σ) : Except Failure Metrics.Summary :=
  match p with
  | .row => ((runScan h engine (some cls) app (.cls reader) token).on s).1
  | .vertex => ((runVertexScan h engine (some cls) app (.cls reader) token).on s).1

/-- **A job that counts rows where it is registered.** Ids are given without a change to the names that
are bound; names are bound without blanks at their ends, also by imports; and the job that a worker
makes counts rows. -/
structure Scans (h : Host σ) (newId : Act σ String) (p : Presentation) (cls : JobClass)
    (app : Given Application) (s : Desk σ) (tally : ScanTask.Tally) : Prop where
  newId : ∀ w, h.registry (newId.on w).2 = h.registry w
  stripped : (h.registry s.journal.world).Stripped
  imports : ∀ m, (h.importModule m).Keeps fun w => (h.registry w).Stripped
  counts : ∀ c j name f, Registered h (ScanTask.tasks h p) (some cls) app s (.this c) j →
    ScanTask.jobName c.copy = .ok name → (h.registry j.world).get? name = some f →
      ∃ keeps, ScanTask.CountsRows (h.behaviour f.makes) p c.copy tally keeps

/-- **A reader serves these rows in these splits**, to the engine that plans and to its workers. If these
are processes it can be handed to them, with each split. -/
def Serves (pool : Pool) (reader : ReaderClass) (c : Flat) (feeds : List (List Row)) : Prop :=
  ∃ splits r, LocalJob.splitsOf reader (.this c) = .ok splits ∧
    reader.create (.this c.copy) = .ok r ∧ splits.map r.read = (feeds.map fun rows => ⟨rows, none⟩) ∧
    (pool = .process → ∀ split ∈ splits, reader.handing split = .ok ())

/-- **Metrics that count each row once**: the rows, the splits, and what the job counts. -/
structure Counted (tally : ScanTask.Tally) (p : Presentation) (feeds : List (List Row))
    (m : Metrics.Summary) : Prop where
  success : m.get (.text Metrics.success) = .ok feeds.flatten.length
  failure : m.get (.text Metrics.failure) = .ok 0
  inputRecords : Metrics.Summary.valueIn m.engine (.text "engine.task.MAP_INPUT_RECORDS") =
    .ok feeds.flatten.length
  mapTasks : Metrics.Summary.valueIn m.engine (.text "engine.task.MAP_TASKS") = .ok feeds.length
  custom : ∀ name, m.getCustom (.text name) =
    .ok (feeds.flatten.map fun r => ScanTask.sumOf ((tally.shown p r).getD []) name).sum

/-- Metrics that agree on rows and on what the job counts. -/
structure Agree (m m' : Metrics.Summary) : Prop where
  standard : ∀ name, Metrics.isStandard name = true → m.get (.text name) = m'.get (.text name)
  inputRecords : Metrics.Summary.valueIn m.engine (.text "engine.task.MAP_INPUT_RECORDS") =
    Metrics.Summary.valueIn m'.engine (.text "engine.task.MAP_INPUT_RECORDS")
  custom : ∀ name, m.getCustom (.text name) = m'.getCustom (.text name)

variable {h : Host σ} {newId : Act σ String} {p : Presentation} {cls : JobClass}
  {app : Given Application} {s : Desk σ} {tally : ScanTask.Tally} {reader : ReaderClass}
  {token : Option Token} {e : Local} {c : Flat} {j : Journal σ} {feeds : List (List Row)}

theorem scanned_eq (engine : Engine σ ScanTask.State (LocalJob σ ScanTask.State)) :
    scanned h engine p cls app reader token s =
      ((runRegistered h engine (ScanTask.tasks h p) (some cls) app (.cls reader) token).on s).1 := by
  cases p <;> rfl

/-! ### The tasks of a scan -/

/-- **Workers find the job that was checked.** -/
theorem worker_finds (hscan : Scans h newId p cls app s tally)
    (hr : Registered h (ScanTask.tasks h p) (some cls) app s (.this c) j) {id : String} {w : σ}
    (hid : newId.on j.world = (.ok id, w)) :
    ∃ name f keeps, ScanTask.jobName c.copy = .ok name ∧ (h.registry w).get? name = some f ∧
      ScanTask.CountsRows (h.behaviour f.makes) p c.copy tally keeps := by
  obtain ⟨name, f, -, -, -, hjobName, hfound, -⟩ := hr.named hscan.stripped hscan.imports
  obtain ⟨keeps, hcounts⟩ := hscan.counts c j name f hr hjobName hfound
  have hkept := hscan.newId j.world
  rw [hid] at hkept
  exact ⟨name, f, keeps, hjobName, hkept ▸ hfound, hcounts⟩

/-! ### What is counted -/

/-- The counters of the tasks of a scan. -/
theorem counted_of_adds {cs : Counters} {m : Metrics.Summary}
    (hcs : Adds ScanTask.scanGroups
      (fun g n => (feeds.map fun rows => ScanTask.taskAdds tally p rows g n).sum) Counters.empty cs)
    (hm : Metrics.Summary.ofValue cs.toValue = .ok m) : Counted tally p feeds m := by
  have hwithin := hcs.within (within_empty _)
  have hvalue : ∀ g n, cs.value g n = ScanTask.rowsAdd tally p feeds.flatten g n +
      feeds.length * single Task.group Task.mapTasks 1 g n := by
    intro g n
    rw [hcs.value, value_empty, ScanTask.sum_taskAdds, Int.zero_add]
  -- of all groups with full names, only that of the tasks is in use
  have hengine : ∀ n, Metrics.Summary.valueIn m.engine (.text (Task.group ++ "." ++ n)) =
      .ok (cs.value Task.group n) := by
    intro n
    refine Metrics.Summary.valueIn_engine_of_ofValue hm (by decide) fun g n' k hk hs hc he => ?_
    obtain ⟨t, ht⟩ : ∃ t, cs.groups.get? g = some t := by
      rw [group] at hk
      cases hg : cs.groups.get? g with
      | none => rw [hg] at hk; cases hk
      | some t => exact ⟨t, rfl⟩
    obtain rfl : g = Task.group := by
      have hmem := hwithin.group g t ht
      simp only [ScanTask.scanGroups, List.mem_cons, List.not_mem_nil, or_false] at hmem
      exact hmem.resolve_right (not_or.mpr ⟨hs, hc⟩)
    exact ⟨rfl, (String.append_right_inj _).mp he⟩
  have hsame : ∀ {g n : String} {k l : Int}, (∀ incs, ScanTask.rowAdds incs g n = k) →
      single Task.group Task.mapTasks 1 g n = l →
        cs.value g n = feeds.flatten.length * k + feeds.length * l := by
    intro g n k l hk hl
    rw [hvalue, ScanTask.rowsAdd_of_forall hk, hl]
  refine ⟨?_, ?_, ?_, ?_, fun name => ?_⟩
  · rw [Metrics.Summary.get_of_ofValue hm (by decide), Metrics.get, hsame (k := 1) (l := 0)]
    · simp
    · simp [ScanTask.rowAdds, single, ScanTask.custom, Task.group, Metrics.standardGroup,
        Metrics.customGroup]
    · decide
  · rw [Metrics.Summary.get_of_ofValue hm (by decide), Metrics.get, hsame (k := 0) (l := 0)]
    · simp
    · simp [ScanTask.rowAdds, single, ScanTask.custom, Task.group, Metrics.standardGroup,
        Metrics.customGroup, Metrics.success, Metrics.failure]
    · decide
  · refine (hengine Task.inputRecords).trans ?_
    rw [hsame (k := 1) (l := 0)]
    · simp
    · simp [ScanTask.rowAdds, single, ScanTask.custom, Task.group, Metrics.standardGroup,
        Metrics.customGroup]
    · decide
  · refine (hengine Task.mapTasks).trans ?_
    rw [hsame (k := 0) (l := 1)]
    · simp
    · simp [ScanTask.rowAdds, single, ScanTask.custom, Task.group, Task.inputRecords,
        Task.mapTasks, Metrics.standardGroup, Metrics.customGroup]
    · decide
  · rw [Metrics.Summary.getCustom_of_ofValue hm, Metrics.getCustom, hvalue,
      ScanTask.rowsAdd_custom]
    simp [single, Task.group, Metrics.customGroup]

/-- What the reader reads of each split. -/
theorem Serves.rows_of_read {splits : List Value} {r : Reader}
    (hread : splits.map r.read = feeds.map fun rows => ⟨rows, none⟩) {split : Value}
    (hsplit : split ∈ splits) : ∃ rows ∈ feeds, r.read split = ⟨rows, none⟩ := by
  have hmem : r.read split ∈ feeds.map fun rows => (⟨rows, none⟩ : Feed) := by
    rw [← hread]
    exact List.mem_map_of_mem hsplit
  obtain ⟨rows, hrows, he⟩ := List.mem_map.mp hmem
  exact ⟨rows, hrows, he.symm⟩

/-- A scan is handed to workers with its reader. -/
theorem handAll_tasks {splits : List Value} {pool : Pool}
    (hhand : pool = .process → ∀ split ∈ splits, reader.handing split = .ok ()) :
    (⟨ScanTask.tasks h p, reader, splits⟩ : LocalJob.Plan σ ScanTask.State).handAll pool = .ok () := by
  refine forM_eq_ok_iff.mpr fun split hsplit => ?_
  cases pool with
  | thread => rfl
  | process => exact hhand rfl split hsplit

/-- **The run of a job that fails on no row** ends with metrics that count each row once. -/
theorem scanned_ok (hscan : Scans h newId p cls app s tally) (hopened : e.crew.opening = .ok ())
    (htoken : ∀ t ∈ token, t.requested = .ok false)
    (hr : Registered h (ScanTask.tasks h p) (some cls) app s (.this c) j)
    (hserves : Serves e.pool reader c feeds) {id : String} {w : σ} (hid : newId.on j.world = (.ok id, w))
    (hrows : ∀ r ∈ feeds.flatten, tally.shown p r ≠ none) :
    ∃ m, scanned h (e.toEngine newId) p cls app reader token s = .ok m ∧
      Counted tally p feeds m := by
  obtain ⟨name, f, keeps, hname, hfound, hcounts⟩ := worker_finds hscan hr hid
  obtain ⟨splits, r, hsplits, hmade, hread, hhand⟩ := hserves
  -- each task ends with its counters, and adds what its own split holds
  have htask : ∀ split ∈ splits, ∃ cs,
      (Task.run (ScanTask.tasks h p) reader c.copy split).on w = (.ok cs, w) ∧
        Adds ScanTask.scanGroups (ScanTask.taskAdds tally p (r.read split).rows)
          Counters.empty cs := by
    intro split hsplit
    obtain ⟨rows, hmem, hfeed⟩ := Serves.rows_of_read hread hsplit
    rw [hfeed]
    exact ScanTask.run_ok hmade hfeed hname hfound hcounts fun row hrow =>
      hrows row (List.mem_flatten.mpr ⟨rows, hmem, hrow⟩)
  choose! counters hrun hadds using htask
  obtain ⟨world, lines⟩ := j
  obtain ⟨o, m, ho, hm, hof⟩ := execute_ok (e := e)
    (strip (Descriptor.listName (ScanTask.tasks h p).name (h.behaviour cls).label)) hid hsplits
    hopened (handAll_tasks hhand) htoken hrun lines
  refine ⟨m, ?_, counted_of_adds ?_ hof⟩
  · rw [scanned_eq, runRegistered_on hr, ho]
    exact hm
  · have hall : Adds ScanTask.scanGroups
        (fun g n => ((splits.map counters).map fun d => d.value g n).sum) Counters.empty
        (LocalJob.sumCounters ((splits.map counters).map .ok)) := by
      refine LocalJob.adds_sumCounters (by decide) fun d hd => ?_
      obtain ⟨split, hsplit, rfl⟩ := List.mem_map.mp hd
      exact (hadds split hsplit).within (within_empty _)
    have hsum : ∀ g n, (splits.map counters).map (fun d => d.value g n) =
        feeds.map fun rows => ScanTask.taskAdds tally p rows g n := by
      intro g n
      calc (splits.map counters).map (fun d => d.value g n)
          = splits.map fun split => ScanTask.taskAdds tally p (r.read split).rows g n := by
            rw [List.map_map]
            refine List.map_congr_left fun split hsplit => ?_
            exact ((hadds split hsplit).value g n).trans (Int.zero_add _)
        _ = (splits.map r.read).map fun feed => ScanTask.taskAdds tally p feed.rows g n := by
            rw [List.map_map]
            rfl
        _ = feeds.map fun rows => ScanTask.taskAdds tally p rows g n := by
            rw [hread, List.map_map]
            rfl
    simpa only [hsum] using hall

/-- **A run that has metrics** had its workers, and its job failed on no row. -/
theorem of_scanned_ok (hscan : Scans h newId p cls app s tally)
    (hr : Registered h (ScanTask.tasks h p) (some cls) app s (.this c) j)
    (hserves : Serves e.pool reader c feeds) {id : String} {w : σ} (hid : newId.on j.world = (.ok id, w))
    {m : Metrics.Summary} (hm : scanned h (e.toEngine newId) p cls app reader token s = .ok m) :
    e.crew.opening = .ok () ∧ ∀ r ∈ feeds.flatten, tally.shown p r ≠ none := by
  obtain ⟨name, f, keeps, hname, hfound, hcounts⟩ := worker_finds hscan hr hid
  obtain ⟨splits, r, hsplits, hmade, hread, -⟩ := hserves
  -- a task that fails leaves the world as it is, so that all others run alike
  have htask : ∀ split ∈ splits, ∃ result,
      (Task.run (ScanTask.tasks h p) reader c.copy split).on w = (result, w) ∧
        ((∃ row ∈ (r.read split).rows, tally.shown p row = none) → ∃ f, result = .error f) := by
    intro split hsplit
    obtain ⟨rows, -, hfeed⟩ := Serves.rows_of_read hread hsplit
    rw [hfeed]
    by_cases hfine : ∃ row ∈ rows, tally.shown p row = none
    · obtain ⟨f, hrun⟩ := ScanTask.run_error hmade hfeed hname hfound hcounts hfine
      exact ⟨_, hrun, fun _ => ⟨f, rfl⟩⟩
    · obtain ⟨cs, hrun, -⟩ := ScanTask.run_ok hmade hfeed hname hfound hcounts
        fun row hrow hnone => hfine ⟨row, hrow, hnone⟩
      exact ⟨_, hrun, fun h => absurd h hfine⟩
  choose! result hrun hfails using htask
  obtain ⟨world, lines⟩ := j
  rw [scanned_eq, runRegistered_on hr] at hm
  obtain ⟨o, ho, hmetrics⟩ := bind_eq_ok_iff.mp hm
  obtain ⟨hopened, -, hall⟩ := of_execute_ok (e := e) hid hsplits hrun ho hmetrics
  refine ⟨hopened, fun row hrow hnone => ?_⟩
  obtain ⟨rows, hmem, hrow⟩ := List.mem_flatten.mp hrow
  obtain ⟨split, hsplit, hfeed⟩ : ∃ split ∈ splits, r.read split = ⟨rows, none⟩ := by
    have hin : (⟨rows, none⟩ : Feed) ∈ splits.map r.read := by
      rw [hread]
      exact List.mem_map_of_mem hmem
    exact List.mem_map.mp hin
  obtain ⟨d, hd⟩ := hall split hsplit
  obtain ⟨f, hf⟩ := hfails split hsplit ⟨row, by rw [hfeed]; exact hrow, hnone⟩
  cases hd.symm.trans hf

/-! ### All runs -/

/-- **A run succeeds exactly if the job can be submitted, has its workers and fails on no row.** -/
theorem scanned_ok_iff (hscan : Scans h newId p cls app s tally)
    (htoken : ∀ t ∈ token, t.requested = .ok false)
    (hserves : ∀ c j, Registered h (ScanTask.tasks h p) (some cls) app s (.this c) j →
      Serves e.pool reader c feeds) :
    (∃ m, scanned h (e.toEngine newId) p cls app reader token s = .ok m) ↔
      (∃ c j id w, Registered h (ScanTask.tasks h p) (some cls) app s (.this c) j ∧
        newId.on j.world = (.ok id, w)) ∧ e.crew.opening = .ok () ∧
        ∀ r ∈ feeds.flatten, tally.shown p r ≠ none := by
  constructor
  · rintro ⟨m, hm⟩
    have hrun := hm
    rw [scanned_eq] at hrun
    obtain ⟨c, j, hr⟩ := registered_of_ok hrun
    rw [runRegistered_on hr] at hrun
    obtain ⟨o, ho, -⟩ := bind_eq_ok_iff.mp hrun
    obtain ⟨id, w, hid⟩ := exists_id_of_execute ho
    exact ⟨⟨c, j, id, w, hr, hid⟩, of_scanned_ok hscan hr (hserves c j hr) hid hm⟩
  · rintro ⟨⟨c, j, id, w, hr, hid⟩, hopened, hrows⟩
    obtain ⟨m, hm, -⟩ := scanned_ok (e := e) hscan hopened htoken hr (hserves c j hr) hid hrows
    exact ⟨m, hm⟩

theorem counted_of_scanned (hscan : Scans h newId p cls app s tally)
    (htoken : ∀ t ∈ token, t.requested = .ok false)
    (hserves : ∀ c j, Registered h (ScanTask.tasks h p) (some cls) app s (.this c) j →
      Serves e.pool reader c feeds) {m : Metrics.Summary}
    (hm : scanned h (e.toEngine newId) p cls app reader token s = .ok m) :
    Counted tally p feeds m := by
  obtain ⟨⟨c, j, id, w, hr, hid⟩, hopened, hrows⟩ :=
    (scanned_ok_iff hscan htoken hserves).mp ⟨m, hm⟩
  obtain ⟨m', hm', hcounted⟩ :=
    scanned_ok (e := e) hscan hopened htoken hr (hserves c j hr) hid hrows
  obtain rfl : m = m' := Except.ok.inj (hm.symm.trans hm')
  exact hcounted

/-- Metrics of the same rows agree, however the rows are cut and ordered. -/
theorem Counted.agree {feeds' : List (List Row)} {m m' : Metrics.Summary}
    (hm : Counted tally p feeds m) (hm' : Counted tally p feeds' m')
    (hperm : feeds.flatten.Perm feeds'.flatten) : Agree m m' where
  standard name hname := by
    have hor : name = Metrics.success ∨ name = Metrics.failure := by
      simpa [Metrics.isStandard] using hname
    rcases hor with rfl | rfl
    · rw [hm.success, hm'.success, hperm.length_eq]
    · rw [hm.failure, hm'.failure]
  inputRecords := by rw [hm.inputRecords, hm'.inputRecords, hperm.length_eq]
  custom name := by
    rw [hm.custom, hm'.custom]
    exact congrArg Except.ok (hperm.map _).sum_eq

/-- **A scan counts each row once**, however the rows are cut into splits: if it succeeds, its metrics
are the number of rows, that of the splits and the sums of what the job counts, and no failure. A
reader that serves the same rows in other splits and another order makes no difference: with it the run
succeeds as well or fails as well, and the metrics agree. -/
theorem each_row_counted_once (hscan : Scans h newId p cls app s tally)
    (htoken : ∀ t ∈ token, t.requested = .ok false)
    (hserves : ∀ c j, Registered h (ScanTask.tasks h p) (some cls) app s (.this c) j →
      Serves e.pool reader c feeds) :
    (∀ m, scanned h (e.toEngine newId) p cls app reader token s = .ok m →
      Counted tally p feeds m) ∧
    ∀ (reader' : ReaderClass) (feeds' : List (List Row)),
      (∀ c j, Registered h (ScanTask.tasks h p) (some cls) app s (.this c) j →
        Serves e.pool reader' c feeds') → feeds.flatten.Perm feeds'.flatten →
      ((∃ m, scanned h (e.toEngine newId) p cls app reader token s = .ok m) ↔
        ∃ m, scanned h (e.toEngine newId) p cls app reader' token s = .ok m) ∧
      ∀ m m', scanned h (e.toEngine newId) p cls app reader token s = .ok m →
        scanned h (e.toEngine newId) p cls app reader' token s = .ok m' → Agree m m' := by
  refine ⟨fun m => counted_of_scanned hscan htoken hserves, fun reader' feeds' hserves' hperm =>
    ⟨?_, fun m m' hm hm' => ?_⟩⟩
  · rw [scanned_ok_iff hscan htoken hserves, scanned_ok_iff hscan htoken hserves']
    simp only [hperm.mem_iff]
  · exact (counted_of_scanned hscan htoken hserves hm).agree
      (counted_of_scanned hscan htoken hserves' hm') hperm

end

/-! ### A job that counts what it has seen -/

/-- A job without a configuration that counts by a tally. -/
def tallying (tally : ScanTask.Tally) : Behaviour where
  label := "Tallying"
  root := .nothing
  create := .ok ()
  start _ := pure ()
  process _ r :=
    match tally r with
    | some incs => Bench.counting (ScanTask.countAll incs)
    | none => throw (.blank "row")
  finish := pure ()
  foreign := none

theorem countsRows_tallying {tally : ScanTask.Tally}
    (htally : ∀ r incs, tally r = some incs → ∀ cs, ∃ cs',
      (ScanTask.countAll incs).on cs = (.ok (), cs')) (p : Presentation) (c : Flat) :
    ScanTask.CountsRows (tallying tally) p c tally fun _ => True where
  isJob := rfl
  create := rfl
  start := ⟨none, rfl, fun cs => ⟨_, rfl, trivial, rfl⟩⟩
  counts r incs hr kept cs _ := by
    obtain ⟨cs', hcount⟩ := htally r incs hr cs
    refine ⟨⟨kept, cs', none⟩, ?_, trivial, hcount⟩
    have hprocess : ((tallying tally).process p r).on ⟨kept, cs, none⟩ =
        (Bench.counting (ScanTask.countAll incs)).on ⟨kept, cs, none⟩ := by
      simp only [tallying, hr]
    rw [hprocess, Bench.counting, Act.on_read_bind, Act.on_zoom, hcount]
  fails r hr kept cs _ := by
    refine ⟨.blank "row", ⟨kept, cs, none⟩, ?_⟩
    simp only [tallying, hr, Act.on_throw]
  finish kept cs _ := ⟨_, rfl, rfl⟩

/-- One is counted for each row that has a key. -/
def seen : ScanTask.Tally := fun r =>
  match r.key with
  | .none => none
  | _ => some [("seen", .int 1)]

theorem countAll_of_seen {r : Row} {incs : List (String × Value)} (h : seen r = some incs)
    (cs : Counters) : ∃ cs', (ScanTask.countAll incs).on cs = (.ok (), cs') := by
  obtain rfl : incs = [("seen", .int 1)] := by
    unfold seen at h
    split at h
    · cases h
    · exact (Option.some.inj h).symm
  exact ⟨_, Act.on_bind_ok (increment_eq_ok_iff.mpr ⟨by decide, by decide, ⟨1, rfl⟩, rfl⟩)⟩

/-- The class of the job, and the library in which it is registered. -/
def seenClass : JobClass := ⟨0, "jobs", "Seen"⟩

def seenLibrary : Library :=
  { Library.empty with registries := [Registry.empty.bind "jobs.Seen" (.jobClass seenClass)] }

def seenHost : Host Library := Library.host (fun _ => tallying seen) 0

def seenDesk : Desk Library := ⟨.this Flat.empty, .start seenLibrary⟩

theorem scans_seen (id : String) (p : Presentation) :
    Scans seenHost (pure id) p seenClass .nothing seenDesk seen where
  newId _ := rfl
  stripped := Registry.stripped_empty.bind ⟨by decide, by decide⟩ _
  imports m := Library.stripped_importModule 0 m
  counts c _ _ _ _ _ _ := ⟨_, countsRows_tallying (fun _ _ h => countAll_of_seen h) p c.copy⟩

theorem registered_seen (p : Presentation) : ∃ c j, Registered seenHost
    (ScanTask.tasks seenHost p) (some seenClass) .nothing seenDesk (.this c) j :=
  ⟨_, _, seenClass, .nothing, "jobs.Seen", .start seenLibrary, none, Flat.empty, rfl, rfl, rfl,
    rfl, rfl, rfl⟩

/-- A reader with rows that are written down. -/
def splitReader (feeds : List (List Row)) : ReaderClass where
  name := "SplitReader"
  create _ := .ok {
    splits := .ok ((List.range feeds.length).map fun (i : Nat) => .int i)
    read v := ⟨feeds.getD (v.integer?.getD 0).toNat [], none⟩ }

theorem serves_splitReader (pool : Pool) (c : Flat) (feeds : List (List Row)) :
    Serves pool (splitReader feeds) c feeds := by
  refine ⟨_, _, rfl, rfl, List.ext_getElem (by simp) fun i hi _ => ?_, fun _ _ _ => rfl⟩
  have hlt : i < feeds.length := by simpa using hi
  simp [Value.integer?, hlt]

/-- Three rows in two splits are counted, and the same rows in three splits as well. -/
theorem rows_counted_in_two_splits :
    let run := fun feeds => scanned seenHost
      ((⟨.thread, .int 2, .int 1, none⟩ : Local).toEngine (pure "job_local_000000000000")) .row
      seenClass .nothing (splitReader feeds) none seenDesk
    let row := fun key => (⟨.text key, []⟩ : Row)
    let feeds := [[row "a", row "b"], [row "c"]]
    let feeds' := [[row "c"], [], [row "b", row "a"]]
    ∃ m m', run feeds = .ok m ∧ run feeds' = .ok m' ∧ Counted seen .row feeds m ∧ Agree m m' := by
  intro run row feeds feeds'
  have hscan := scans_seen "job_local_000000000000" .row
  have htoken : ∀ t ∈ (none : Option Token), t.requested = .ok false := by simp
  have hserves : ∀ feeds c j, Registered seenHost (ScanTask.tasks seenHost .row) (some seenClass)
      .nothing seenDesk (.this c) j → Serves .thread (splitReader feeds) c feeds :=
    fun feeds c _ _ => serves_splitReader .thread c feeds
  have hperm : feeds.flatten.Perm feeds'.flatten := (List.reverse_perm feeds.flatten).symm
  obtain ⟨c, j, hr⟩ := registered_seen .row
  have hrows : ∀ r ∈ feeds.flatten, seen.shown .row r ≠ none := by
    simp [feeds, row, ScanTask.Tally.shown, Row.present, seen, Except.toOption]
  obtain ⟨hcounted, hother⟩ := each_row_counted_once
    (e := ⟨.thread, .int 2, .int 1, none⟩) hscan htoken (hserves feeds)
  obtain ⟨hiff, hagree⟩ := hother (splitReader feeds') feeds' (hserves feeds') hperm
  have hok : ∃ m, run feeds = .ok m :=
    (scanned_ok_iff hscan htoken (hserves feeds)).mpr ⟨⟨c, j, _, _, hr, rfl⟩, rfl, hrows⟩
  obtain ⟨m, hm⟩ := hok
  obtain ⟨m', hm'⟩ := hiff.mp ⟨m, hm⟩
  exact ⟨m, m', hm, hm', hcounted m hm, hagree m m' hm hm'⟩

end ScanJobs.Job
