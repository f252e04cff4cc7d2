import ScanJobs.Job.Runner
import ScanJobs.Proofs.Config.Merging

/-! # Runs submit once, and only what is ready

A run is looked at as a function of how the engine makes jobs. Either it fails before a job is made,
whatever the engine would make, and leaves the flat configuration as it was; or it asks for a job once,
for one configuration, and all that follows depends on the answer alone (`SubmitsOnce`). This holds of
all four ways to run a job (`runs_submit_once`), and the configuration is then the caller's after the
merge, to which a registered job adds its name and its module. -/

namespace ScanJobs

open Config

/-- The engine with another way to make jobs. -/
def Engine.making {σ τ η : Type} (e : Engine σ τ η) (make : Given Flat → Act (Journal σ) η) :
    Engine σ τ η :=
  { e with create := make }

namespace Job

open Engine Text

variable {σ τ η α β : Type}

/-- **A run submits once at most, and only what is ready.** -/
inductive SubmitsOnce (run : (Given Flat → Act (Journal σ) η) → Act (Desk σ) α)
    (Ready : Given Flat → Journal σ → Prop) (s : Desk σ) : Prop where
  /-- It fails before it asks for a job, and the configuration is as before. -/
  | refused (f : Failure) (j : Journal σ) (h : ∀ make, (run make).on s = (.error f, ⟨s.config, j⟩))
  /-- It asks for one job, and goes on with the answer. If there is no job, this is the end. -/
  | submitted (c : Given Flat) (j : Journal σ) (ready : Ready c j)
      (answer : Except Failure η × Journal σ → Except Failure α × Journal σ)
      (failed : ∀ f j, answer (.error f, j) = (.error f, j))
      (h : ∀ make, (run make).on s =
        ((answer ((make c).on j)).1, ⟨c, (answer ((make c).on j)).2⟩))

namespace SubmitsOnce

variable {run : (Given Flat → Act (Journal σ) η) → Act (Desk σ) α}
  {Ready : Given Flat → Journal σ → Prop} {s : Desk σ}

theorem imp (h : SubmitsOnce run Ready s) {Ready' : Given Flat → Journal σ → Prop}
    (hr : ∀ c j, Ready c j → Ready' c j) : SubmitsOnce run Ready' s := by
  cases h with
  | refused f j h => exact .refused f j h
  | submitted c j ready answer failed h =>
    exact .submitted c j (hr c j ready) answer failed h

/-- What is told of the outcome in the end does not matter. -/
theorem bind_ofExcept (h : SubmitsOnce run Ready s) (g : α → Except Failure β) :
    SubmitsOnce (fun make => run make >>= fun x => Act.ofExcept (g x)) Ready s := by
  cases h with
  | refused f j h => exact .refused f j fun make => Act.on_bind_error (h make)
  | submitted c j ready answer failed h =>
    refine .submitted c j ready (fun x => ((answer x).1 >>= g, (answer x).2)) (fun f j => ?_)
      fun make => ?_
    · rw [failed]
      rfl
    · rw [Act.on_bind, h make]
      cases (answer ((make c).on j)).1 <;> rfl

/-- Neither does what is done before, if it leaves the configuration alone. -/
theorem after {a : Act (Desk σ) β} {run : β → (Given Flat → Act (Journal σ) η) → Act (Desk σ) α}
    (hc : (a.on s).2.config = s.config)
    (h : ∀ x s', a.on s = (.ok x, s') → SubmitsOnce (run x) Ready s') :
    SubmitsOnce (fun make => a >>= fun x => run x make) Ready s := by
  cases ha : a.on s with
  | mk result s' =>
    rw [ha] at hc
    cases result with
    | error f => exact .refused f s'.journal fun make => by rw [Act.on_bind_error ha, ← hc]
    | ok x =>
      cases h x s' ha with
      | refused f j h => exact .refused f j fun make => by rw [Act.on_bind_ok ha, h make, hc]
      | submitted c j ready answer failed h =>
        exact .submitted c j ready answer failed fun make => by rw [Act.on_bind_ok ha, h make]

end SubmitsOnce

/-! ### What precedes the execution -/

theorem solid_standard : Solid Keys.standard.above ∧ ∀ key ∈ Keys.standard.reserved, Solid key :=
  Keys.solid_under ⟨by decide, by decide⟩

theorem isBlank_standard {key : String} (h : key ∈ Keys.standard.reserved) : isBlank key = false :=
  (solid_standard.2 key h).isBlank_eq

/-- **Before a job is executed**, nothing is changed, or the merge has succeeded and the entries are
written. -/
theorem prepare_cases (r : Request σ τ) {entries : List (String × String)}
    (hentries : ∀ e ∈ entries, isBlank e.1 = false) {g g' : Given Flat}
    {result : Except Failure (Descriptor σ τ)} (h : (r.prepare entries).on g = (result, g')) :
    (∃ f, result = .error f ∧ g' = g) ∨
      ∃ d w g₀, result = .ok d ∧ (merge r.app r.root Keys.standard).on g = (.ok w, g₀) ∧
        (writeAll entries).on g₀ = (.ok (), g') := by
  have ha := solid_standard.1
  have hr : isBlank Keys.standard.root = false := isBlank_standard (by simp [Keys.reserved])
  unfold Request.prepare at h
  rw [Act.on_read_bind] at h
  split at h
  · cases h
    exact .inl ⟨_, rfl, rfl⟩
  · cases h
    exact .inl ⟨_, rfl, rfl⟩
  · rw [Act.on_read_bind] at h
    rcases Act.on_bind_cases h with ⟨f, hd, rfl⟩ | ⟨d, g₁, hd, h⟩
    · obtain ⟨-, rfl⟩ := Prod.mk.inj hd
      exact .inl ⟨f, rfl, rfl⟩
    obtain ⟨-, rfl⟩ := Prod.mk.inj hd
    rcases Act.on_bind_cases h with ⟨f, hm, rfl⟩ | ⟨w, g₀, hm, h⟩
    · exact .inl ⟨f, rfl, merge_error ha hr hm⟩
    rcases Act.on_bind_cases h with ⟨f, hw, rfl⟩ | ⟨u, g₂, hw, h⟩
    · -- only where there is no flat configuration, so that nothing was merged
      obtain ⟨rfl, hno⟩ := writeAll_error hentries hw
      rcases merge_cases ha hr hm with hsame | ⟨a, q, c, writes, -, -, -, -, -, hc⟩
      · exact .inl ⟨f, rfl, hsame⟩
      · exact absurd hc (hno _)
    · obtain ⟨rfl, rfl⟩ := Prod.mk.inj h
      exact .inr ⟨d, w, g₀, rfl, hm, hw⟩

/-! ### Execution -/

theorem on_onJournal {a : Act (Journal σ) α} (s : Desk σ) :
    (Desk.onJournal a).on s = ((a.on s.journal).1, ⟨s.config, (a.on s.journal).2⟩) := rfl

theorem on_onConfig {a : Act (Given Flat) α} (s : Desk σ) :
    (Desk.onConfig a).on s = ((a.on s.config).1, ⟨(a.on s.config).2, s.journal⟩) := rfl

/-- **A request with entries submits once**, after the merge and with the entries written. -/
theorem executeWith_submits_once (e : Engine σ τ η) (r : Request σ τ)
    {entries : List (String × String)} (hentries : ∀ e ∈ entries, isBlank e.1 = false)
    (token : Option Token) (s : Desk σ) :
    SubmitsOnce (fun make => executeWith (e.making make) r entries token)
      (fun c j => j = s.journal ∧ ∃ w g,
        (merge r.app r.root Keys.standard).on s.config = (.ok w, g) ∧
          (writeAll entries).on g = (.ok (), c)) s := by
  obtain ⟨result, c, hprepare⟩ : ∃ result c, (r.prepare entries).on s.config = (result, c) :=
    ⟨_, _, rfl⟩
  have hconfig : (Desk.onConfig (r.prepare entries)).on s = (result, ⟨c, s.journal⟩) := by
    rw [on_onConfig, hprepare]
  rcases prepare_cases r hentries hprepare with ⟨f, rfl, rfl⟩ | ⟨d, w, g, rfl, hmerge, hwrite⟩
  · exact .refused f s.journal fun make => Act.on_bind_error hconfig
  · refine .submitted c s.journal ⟨rfl, w, g, hmerge, hwrite⟩
      (fun x => match x with
        | (.ok job, j) => (withJob job (carryOut e d token)).on j
        | (.error f, j) => (.error f, j)) (fun f j => rfl) fun make => ?_
    have hrun : (executeWith (e.making make) r entries token).on s =
        (Desk.onJournal (execute (some (e.making make)) (some d) c token)).on ⟨c, s.journal⟩ :=
      Act.on_bind_ok hconfig
    -- but for making the job the engine is the same
    have hexecute : execute (some (e.making make)) (some d) c token =
        make c >>= fun job => withJob job (carryOut e d token) := rfl
    rw [hrun, on_onJournal, hexecute, Act.on_bind]
    cases hmade : (make c).on s.journal with
    | mk made j => cases made <;> rfl

/-! ### The four ways to run a job -/

/-- What is submitted is the configuration after the merge, and nothing else has happened. -/
def Merged (app : Given Application) (root : Given Schema.Node) (s : Desk σ) (c : Given Flat)
    (j : Journal σ) : Prop :=
  j = s.journal ∧ ∃ w, (merge app root Keys.standard).on s.config = (.ok w, c)

/-- The job was found by its name; what is submitted is the configuration after the merge with the
name and the module of the job's class. -/
def Registered (h : Host σ) (task : TaskClass σ τ) (job : Option JobClass)
    (app : Given Application) (s : Desk σ) (c : Given Flat) (j : Journal σ) : Prop :=
  ∃ cls root name j₀ w c₀, job = some cls ∧ rootFor h cls app = .ok root ∧
    (h.preflight (some cls)).on s.journal = (.ok name, j₀) ∧
    (merge app root Keys.standard).on s.config = (.ok w, .this c₀) ∧
    c = .this ((c₀.put Keys.standard.jobClass name).put Keys.standard.jobModule cls.module) ∧
    (Journal.log .info ("Running scan job " ++ name ++ " as " ++
      Descriptor.listName task.name (h.behaviour cls).label)).on j₀ = (.ok (), j)

theorem executeRequest_submits_once (e : Engine σ τ η) (r : Request σ τ) (token : Option Token)
    (s : Desk σ) :
    SubmitsOnce (fun make => executeRequest (e.making make) r token) (Merged r.app r.root s) s := by
  have hnone : ∀ entry ∈ ([] : List (String × String)), isBlank entry.1 = false := by simp
  refine (executeWith_submits_once e r hnone token s).imp ?_
  rintro c j ⟨rfl, w, g, hmerge, hwrite⟩
  obtain ⟨-, rfl⟩ := Prod.mk.inj hwrite
  exact ⟨rfl, w, hmerge⟩

theorem isBlank_entriesFor (cls : JobClass) (name : String) :
    ∀ entry ∈ entriesFor cls name, isBlank entry.1 = false := by
  simp only [entriesFor, List.mem_cons, List.not_mem_nil, or_false]
  rintro entry (rfl | rfl)
  · exact isBlank_standard (by simp [Keys.reserved])
  · exact isBlank_standard (by simp [Keys.reserved])

/-- **A job that is given submits once**, with its name and its module written after the merge. -/
theorem runJob_submits_once (h : Host σ) (e : Engine σ τ η) (task : TaskClass σ τ) (cls : JobClass)
    (app : Given Application) (reader : ClassArg ReaderClass) (token : Option Token) (s : Desk σ) :
    SubmitsOnce (fun make => runJob h (e.making make) task cls app reader token)
      (Registered h task (some cls) app s) s := by
  refine .after rfl fun root s₁ hroot => ?_
  obtain ⟨hroot', rfl⟩ := Prod.mk.inj hroot
  refine .after rfl fun u s₂ hpairing => ?_
  obtain ⟨-, rfl⟩ := Prod.mk.inj hpairing
  refine .after rfl fun name s₃ hname => ?_
  rw [on_onJournal, Prod.mk.injEq] at hname
  obtain ⟨hname', rfl⟩ := hname
  refine .after rfl fun v s₄ hlog => ?_
  obtain ⟨-, rfl⟩ := Prod.mk.inj hlog
  refine .bind_ofExcept (.imp (executeWith_submits_once e _ (isBlank_entriesFor cls name) token _)
    ?_) _
  rintro c j ⟨rfl, w, g, hmerge, hwrite⟩
  obtain ⟨c₀, rfl, rfl⟩ := writeAll_ok (isBlank_entriesFor cls name) (by simp [entriesFor]) hwrite
  exact ⟨cls, root, name, _, w, c₀, rfl, hroot', Prod.ext hname' rfl, hmerge, rfl, rfl⟩

theorem runRegistered_submits_once (h : Host σ) (e : Engine σ τ η) (task : TaskClass σ τ)
    (job : Option JobClass) (app : Given Application) (reader : ClassArg ReaderClass)
    (token : Option Token) (s : Desk σ) :
    SubmitsOnce (fun make => runRegistered h (e.making make) task job app reader token)
      (Registered h task job app s) s := by
  cases job with
  | none => exact .refused (.missing "scan_job") s.journal fun make => rfl
  | some cls =>
    refine .after rfl fun given s' hgiven => ?_
    obtain ⟨hgiven, rfl⟩ := Prod.mk.inj hgiven
    cases given with
    | nothing => exact .refused (.missing "engine_config") s.journal fun make => rfl
    | this c => exact runJob_submits_once h e task cls app reader token s
    | other x => exact runJob_submits_once h e task cls app reader token s

/-- **Each of the four ways to run a job submits once**, and only what is ready. -/
theorem runs_submit_once (h : Host σ) (e : Engine σ τ η) (e' : Engine σ ScanTask.State η)
    (r : Request σ τ) (job : Option JobClass) (app : Given Application)
    (reader : ClassArg ReaderClass) (token : Option Token) (s : Desk σ) :
    SubmitsOnce (fun make => executeRequest (e.making make) r token) (Merged r.app r.root s) s ∧
    SubmitsOnce (fun make => runRequest (e.making make) r token) (Merged r.app r.root s) s ∧
    SubmitsOnce (fun make => runScan h (e'.making make) job app reader token)
      (Registered h (ScanTask.tasks h .row) job app s) s ∧
    SubmitsOnce (fun make => runVertexScan h (e'.making make) job app reader token)
      (Registered h (ScanTask.tasks h .vertex) job app s) s := by
  refine ⟨?_, ?_, ?_, ?_⟩
  · exact executeRequest_submits_once e r token s
  · exact (executeRequest_submits_once e r token s).bind_ofExcept Outcome.metrics
  · exact runRegistered_submits_once h e' (ScanTask.tasks h .row) job app reader token s
  · exact runRegistered_submits_once h e' (ScanTask.tasks h .vertex) job app reader token s

end Job

end ScanJobs
