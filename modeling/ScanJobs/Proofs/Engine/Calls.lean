import ScanJobs.Proofs.Engine.Submission

/-! # A local job over its calls

A job is set up, submitted and asked in any order, and some of the calls fail. What a single call does is
told by `does_next`; from it follows what holds after any calls (`consistent_after_calls`). The job is in
`DEFINE` until a submission has planned its splits, and from then on it never changes again. If its workers
can be had and take its tasks, and its caller finds out whether to wait, then he was told to stop and the
job runs, or it has ended. A caller who waits for no task is not told to stop, whatever his token says
(`succeeds_without_splits`). -/

namespace ScanJobs.Engine.LocalJob

variable {σ τ : Type}

/-! ### Calls -/

inductive Question where
  | state
  | name
  | output (slot : Slot)
  | id
  | counters
  | failure
  | failureText

/-- What a job answers. -/
def answer (j : LocalJob σ τ) : Question → Except Failure Value
  | .state => .ok (.text j.state.label)
  | .name => .ok j.name
  | .output slot => .ok ((j.outputs.get? slot).elim .none fun c => .text c.name)
  | .id => .ok (.text j.id)
  | .counters => .ok j.state.counters.toValue
  | .failure => .ok (j.state.failure?.elim .none .text)
  | .failureText => j.failureText.map .text

/-- A call on a job. One who submits it may have a token. -/
inductive Call (σ τ : Type) where
  | assign (x : Setting σ τ)
  | submit (token : Option Token)
  | ask (q : Question)

/-- What a call does. -/
def Call.act : Call σ τ → Running σ τ Value
  | .assign x => do
    Stage.onJob (Act.tryChange fun j => j.assign x)
    return .none
  | .submit token => return .bool (← LocalJob.submit token)
  | .ask q => do Act.ofExcept ((← Act.read Stage.job).answer q)

/-- What comes of a call. -/
def Call.result (call : Call σ τ) (s : Stage σ (LocalJob σ τ)) : Except Failure Value :=
  (call.act.on s).1

/-- The stage after a call. -/
def Call.next (call : Call σ τ) (s : Stage σ (LocalJob σ τ)) : Stage σ (LocalJob σ τ) :=
  (call.act.on s).2

/-- **The stage after calls**, of which some may have failed. -/
def after (calls : List (Call σ τ)) (s : Stage σ (LocalJob σ τ)) : Stage σ (LocalJob σ τ) :=
  calls.foldl (fun s call => call.next s) s

/-- One of the calls did this, on the stage as it was by then. -/
def Happened (E : Call σ τ → Stage σ (LocalJob σ τ) → Prop) :
    List (Call σ τ) → Stage σ (LocalJob σ τ) → Prop
  | [], _ => False
  | call :: calls, s => E call s ∨ Happened E calls (call.next s)

/-- The call submits the job, whose splits are planned. -/
def Plans (call : Call σ τ) (s : Stage σ (LocalJob σ τ)) : Prop :=
  ∃ token p, call = .submit token ∧ s.job.plan = .ok p

/-- The call submits the job and is told to stop waiting. -/
def Interrupted (call : Call σ τ) (s : Stage σ (LocalJob σ τ)) : Prop :=
  ∃ token, call = .submit token ∧ call.result s = .error (.engine (.interrupted s.job.id))

/-- The call submits the job, whose splits are planned, and its workers cannot be had or do not take all
tasks, or its caller does not find out whether he is told to stop. -/
def Unserved (call : Call σ τ) (s : Stage σ (LocalJob σ τ)) : Prop :=
  ∃ token p, call = .submit token ∧ s.job.plan = .ok p ∧
    (s.job.crew.opening ≠ .ok () ∨ (∃ f, isInterrupted token p.splits = .error f) ∨
      p.handAll s.job.crew.pool ≠ .ok ())

/-- The call submits the job, and in some world one of its tasks stops the program. -/
def Stops (call : Call σ τ) (s : Stage σ (LocalJob σ τ)) : Prop :=
  ∃ token p c split f, call = .submit token ∧ s.job.plan = .ok p ∧ s.job.config = .this c ∧
    split ∈ p.splits ∧ EndsWith p c.copy split (.error f) ∧ f.isOrdinary = false

/-- A new job of an engine, with nothing done to it. -/
def fresh (journal : Journal σ) (crew : Crew) (c : Config.Flat) (id : String) :
    Stage σ (LocalJob σ τ) :=
  ⟨journal, create crew (.this c) id⟩

/-! ### One call -/

theorem not_stops_assign {x : Setting σ τ} {s : Stage σ (LocalJob σ τ)} : ¬ Stops (.assign x) s :=
  fun ⟨_, _, _, _, _, h, _⟩ => nomatch h

/-- **What a call does**: the job refuses a setting or takes it, is submitted, or answers. -/
inductive Does (c : Config.Flat) (s : Stage σ (LocalJob σ τ)) :
    Call σ τ → Except Failure Value → Stage σ (LocalJob σ τ) → Prop where
  | refuses (x : Setting σ τ) (f : Failure) (h : s.job.assign x = .error f) :
      Does c s (.assign x) (.error f) s
  | takes (x : Setting σ τ) (j : LocalJob σ τ) (h : s.job.assign x = .ok j) :
      Does c s (.assign x) (.ok .none) { s with job := j }
  | submits (token : Option Token) {succeeded : Except Failure Bool} {s' : Stage σ (LocalJob σ τ)}
      (h : Submits runTasks c token s succeeded s') :
      Does c s (.submit token) (succeeded.map .bool) s'
  | answers (q : Question) : Does c s (.ask q) (s.job.answer q) s

variable {c : Config.Flat} {s : Stage σ (LocalJob σ τ)}

theorem submits_next (hconfig : s.job.config = .this c) (token : Option Token) :
    ∃ succeeded, (Call.submit token).result s = succeeded.map .bool ∧
      Submits runTasks c token s succeeded ((Call.submit token).next s) := by
  have hsubmits := submits_on ends_runTasks hconfig token
  rw [submitWith_runTasks] at hsubmits
  have hsubmit : (Call.submit token).act.on s =
      (((LocalJob.submit token).on s).1.map .bool, ((LocalJob.submit token).on s).2) := by
    rw [Call.act, Act.on_bind]
    rcases (LocalJob.submit token).on s with ⟨result, s'⟩
    cases result <;> rfl
  refine ⟨_, congrArg Prod.fst hsubmit, ?_⟩
  rw [Call.next, hsubmit]
  exact hsubmits

theorem on_assign (x : Setting σ τ) (s : Stage σ (LocalJob σ τ)) :
    (Call.assign x).act.on s =
      match s.job.assign x with
      | .ok j => (.ok .none, { s with job := j })
      | .error f => (.error f, s) := by
  rw [Call.act, Act.on_bind, Stage.onJob, Act.on_zoom, Act.on_tryChange]
  cases s.job.assign x <;> rfl

theorem next_of_assign {x : Setting σ τ} {j : LocalJob σ τ} (h : s.job.assign x = .ok j) :
    (Call.assign x).next s = { s with job := j } := by
  rw [Call.next, on_assign, h]

theorem does_next (hconfig : s.job.config = .this c) (call : Call σ τ) :
    Does c s call (call.result s) (call.next s) := by
  cases call with
  | assign x =>
    rw [Call.result, Call.next, on_assign]
    cases hx : s.job.assign x with
    | ok j => exact .takes x j hx
    | error f => exact .refuses x f hx
  | submit token =>
    obtain ⟨succeeded, hresult, hsubmits⟩ := submits_next hconfig token
    rw [hresult]
    exact .submits token hsubmits
  | ask q => exact .answers q

/-- **A job that was submitted never changes again**, and only answers. -/
theorem stands_of_ne (hconfig : s.job.config = .this c) (h : s.job.state ≠ .define)
    (call : Call σ τ) :
    call.next s = s ∧ ((∀ q, call ≠ .ask q) →
      call.result s = .error (.engine (.notDefining s.job.id s.job.state.label))) := by
  have hdoes := does_next hconfig call
  generalize call.result s = result, call.next s = s' at hdoes
  cases hdoes with
  | refuses x f hx =>
    rw [assign_of_ne h] at hx
    cases hx
    exact ⟨rfl, fun _ => rfl⟩
  | takes x j hj => exact absurd (same_of_assign hj).1 h
  | submits token hsubmits =>
    obtain ⟨rfl, rfl⟩ := hsubmits.eq_of_ne h
    exact ⟨rfl, fun _ => rfl⟩
  | answers q => exact ⟨rfl, fun hcall => absurd rfl (hcall q)⟩

theorem same_next (hconfig : s.job.config = .this c) (call : Call σ τ) :
    (call.next s).job.id = s.job.id ∧ (call.next s).job.config = .this c := by
  have hdoes := does_next hconfig call
  generalize call.result s = result, call.next s = s' at hdoes
  cases hdoes with
  | refuses => exact ⟨rfl, hconfig⟩
  | answers => exact ⟨rfl, hconfig⟩
  | takes x j hj =>
    obtain ⟨-, -, hid, hsame⟩ := same_of_assign hj
    exact ⟨hid, hsame.trans hconfig⟩
  | submits token hsubmits => cases hsubmits <;> exact ⟨rfl, hconfig⟩

theorem label_finalState (results : List TaskResult) :
    (finalState results).label = if (failures results).isEmpty then "SUCCEEDED" else "FAILED" := by
  unfold finalState
  dsimp only
  split <;> simp [JobState.label, *]

theorem finalState_ne (results : List TaskResult) :
    finalState results ≠ .define ∧ finalState results ≠ .running := by
  unfold finalState
  dsimp only
  split <;> exact ⟨nofun, nofun⟩

theorem not_define_next_iff (hconfig : s.job.config = .this c) (call : Call σ τ) :
    (call.next s).job.state ≠ .define ↔ s.job.state ≠ .define ∨ Plans call s := by
  by_cases hstate : s.job.state = .define
  · have hdoes := does_next hconfig call
    generalize call.result s = result, call.next s = s' at hdoes
    rw [or_iff_right (not_not_intro hstate)]
    cases hdoes with
    | refuses x => exact ⟨fun h => absurd hstate h, fun ⟨_, _, h, _⟩ => nomatch h⟩
    | answers q => exact ⟨fun h => absurd hstate h, fun ⟨_, _, h, _⟩ => nomatch h⟩
    | takes x j hj =>
      exact ⟨fun h => absurd (same_of_assign hj).2.1 h, fun ⟨_, _, h, _⟩ => nomatch h⟩
    | submits token hsubmits =>
      cases hsubmits with
      | refused f plan =>
        refine ⟨fun h => absurd hstate h, ?_⟩
        rintro ⟨token', p, -, hplan⟩
        cases plan.symm.trans hplan
      | unopened p plan => exact ⟨fun _ => ⟨token, p, rfl, plan⟩, fun _ => nofun⟩
      | unheard p outcomes w ran => exact ⟨fun _ => ⟨token, p, rfl, ran.planned⟩, fun _ => nofun⟩
      | interrupted p outcomes w ran => exact ⟨fun _ => ⟨token, p, rfl, ran.planned⟩, fun _ => nofun⟩
      | untaken p outcomes w ran => exact ⟨fun _ => ⟨token, p, rfl, ran.planned⟩, fun _ => nofun⟩
      | ended p outcomes w ran waited results =>
        exact ⟨fun _ => ⟨token, p, rfl, ran.planned⟩, fun _ => (finalState_ne results).1⟩
  · rw [(stands_of_ne hconfig hstate call).1]
    exact ⟨.inl, fun _ => hstate⟩

/-- Where workers take all tasks, and none of these stops the program, all results are taken. -/
theorem taken_of_served {token : Option Token} (hconfig : s.job.config = .this c)
    (hstops : ¬ Stops (.submit token) s) (hserved : ¬ Unserved (.submit token) s) {p : Plan σ τ}
    {outcomes : List (Except Failure Counters)} {w : σ} (ran : Ran runTasks c s p outcomes w)
    {f : Failure} : p.collect s.job.crew.pool outcomes ≠ .error f := by
  intro hstop
  rcases collect_eq_error hstop with hhand | ⟨hmem, hordinary⟩
  · exact hserved ⟨token, p, rfl, ran.planned, .inr (.inr hhand)⟩
  · obtain ⟨split, hsplit, hend⟩ := exists_left_of_forall₂ (ends_runTasks.of_ran ran.on) hmem
    exact hstops ⟨token, p, c, split, f, rfl, ran.planned, hconfig, hsplit, hend, hordinary⟩

theorem opened_of_served {token : Option Token} (hserved : ¬ Unserved (.submit token) s) {p : Plan σ τ}
    (plan : s.job.plan = .ok p) {f : Failure} : s.job.crew.opening ≠ .error f :=
  fun hopening => hserved ⟨token, p, rfl, plan, .inl fun hopened => nomatch hopened.symm.trans hopening⟩

theorem heard_of_served {token : Option Token} (hserved : ¬ Unserved (.submit token) s) {p : Plan σ τ}
    (plan : s.job.plan = .ok p) {f : Failure} : isInterrupted token p.splits ≠ .error f :=
  fun hheard => hserved ⟨token, p, rfl, plan, .inr (.inl ⟨f, hheard⟩)⟩

theorem running_next_iff (hconfig : s.job.config = .this c) {call : Call σ τ}
    (hstops : ¬ Stops call s) (hserved : ¬ Unserved call s) :
    (call.next s).job.state = .running ↔ s.job.state = .running ∨ Interrupted call s := by
  have hdoes := does_next hconfig call
  unfold Interrupted
  generalize call.result s = result, call.next s = s' at hdoes
  cases hdoes with
  | refuses x => simp
  | answers q => simp
  | takes x j hj =>
    obtain ⟨hbefore, hafter, -⟩ := same_of_assign hj
    simp [hbefore, hafter]
  | submits token hsubmits =>
    cases hsubmits with
    | refused f plan =>
      refine ⟨.inl, fun h => h.resolve_right ?_⟩
      rintro ⟨token', -, herror⟩
      obtain rfl := Except.error.inj herror
      rcases kind_of_plan_error plan with ⟨hkind, -⟩ | ⟨-, hkind | hkind | hkind⟩ <;> cases hkind
    | unopened p plan f opening => exact absurd opening (opened_of_served hserved plan)
    | unheard p outcomes w ran f heard => exact absurd heard (heard_of_served hserved ran.planned)
    | interrupted p => exact ⟨fun _ => .inr ⟨token, rfl, rfl⟩, fun _ => rfl⟩
    | untaken p outcomes w ran _ f results =>
      exact absurd results (taken_of_served hconfig hstops hserved ran)
    | ended p outcomes w ran _ results =>
      have hdefine := define_of_plan ran.planned
      refine ⟨fun h => absurd h (finalState_ne results).2, ?_⟩
      rintro (h | ⟨token', -, h⟩)
      · cases hdefine.symm.trans h
      · cases h

/-! ### All calls -/

theorem same_after (hconfig : s.job.config = .this c) (calls : List (Call σ τ)) :
    (after calls s).job.id = s.job.id ∧ (after calls s).job.config = .this c := by
  induction calls generalizing s with
  | nil => exact ⟨rfl, hconfig⟩
  | cons call calls ih =>
    obtain ⟨hid, hnext⟩ := same_next hconfig call
    obtain ⟨hid', hafter⟩ := ih hnext
    exact ⟨hid'.trans hid, hafter⟩

theorem after_of_ne (hconfig : s.job.config = .this c) (h : s.job.state ≠ .define)
    (calls : List (Call σ τ)) : after calls s = s := by
  induction calls with
  | nil => rfl
  | cons call calls ih =>
    have hnext : after (call :: calls) s = after calls (call.next s) := rfl
    rw [hnext, (stands_of_ne hconfig h call).1, ih]

theorem happened_or {E E' : Call σ τ → Stage σ (LocalJob σ τ) → Prop} {calls : List (Call σ τ)} :
    Happened (fun call s => E call s ∨ E' call s) calls s ↔ Happened E calls s ∨ Happened E' calls s := by
  induction calls generalizing s with
  | nil => exact (or_iff_left not_false).symm
  | cons call calls ih => simp only [Happened, ih, or_or_or_comm]

/-- What an event makes of a stage in one call, it makes of it in all calls, if none of them is one of the
exceptions. -/
theorem after_iff_happened {P : Stage σ (LocalJob σ τ) → Prop}
    {E X : Call σ τ → Stage σ (LocalJob σ τ) → Prop}
    (hstep : ∀ {s : Stage σ (LocalJob σ τ)}, s.job.config = .this c → ∀ {call}, ¬ X call s →
      (P (call.next s) ↔ P s ∨ E call s))
    (hconfig : s.job.config = .this c) {calls : List (Call σ τ)} (hnone : ¬ Happened X calls s) :
    P (after calls s) ↔ P s ∨ Happened E calls s := by
  induction calls generalizing s with
  | nil => exact (or_iff_left not_false).symm
  | cons call calls ih =>
    rw [Happened, not_or] at hnone
    calc P (after calls (call.next s))
      _ ↔ P (call.next s) ∨ Happened E calls (call.next s) :=
        ih (same_next hconfig call).2 hnone.2
      _ ↔ (P s ∨ E call s) ∨ Happened E calls (call.next s) :=
        or_congr_left (hstep hconfig hnone.1)
      _ ↔ P s ∨ Happened E (call :: calls) s := or_assoc

/-- **The state, the counters and the failure of a job agree**, and its state tells what was done:
whether its splits were planned and, where its workers take its tasks, whether its caller was told to stop
waiting, and whether it has ended. A call that the job refuses leaves everything as it was. -/
structure Consistent (calls : List (Call σ τ)) (s₀ s : Stage σ (LocalJob σ τ)) : Prop where
  id : s.job.id = s₀.job.id
  define_iff : s.job.state = .define ↔ ¬ Happened Plans calls s₀
  settled : s.job.state ≠ .define → ∀ more, after more s = s
  running_iff : ¬ Happened Unserved calls s₀ →
    (s.job.state = .running ↔ Happened Interrupted calls s₀)
  failure_iff : (∃ t, s.job.answer .failure = .ok (.text t)) ↔ s.job.state.label = "FAILED"
  failureText_iff : (∃ v, s.job.answer .failureText = .ok v) ↔ s.job.state.label = "FAILED"
  counters : s.job.state.label ≠ "SUCCEEDED" → s.job.state.label ≠ "FAILED" →
    s.job.answer .counters = .ok (.map [])
  refused : s.job.state ≠ .define → ∀ call : Call σ τ, (∀ q, call ≠ .ask q) →
    call.result s = .error (.engine (.notDefining s.job.id s.job.state.label)) ∧ call.next s = s
  unsubmitted : ∀ token f, (Call.submit token).result s = .error f → f.kind = .jobSubmission →
    ¬ Unserved (.submit token) s → (Call.submit token).next s = s ∧ s.job.state = .define
  interrupted : ∀ t p, s.job.plan = .ok p → s.job.crew.opening = .ok () → p.splits ≠ [] →
    t.requested = .ok true →
    (Call.submit (some t)).result s = .error (.engine (.interrupted s.job.id)) ∧
      ((Call.submit (some t)).next s).job = { s.job with state := .running }
  unwaited : ∀ p, s.job.plan = .ok p → s.job.crew.opening = .ok () → p.splits = [] → ∀ token,
    (Call.submit token).result s = .ok (.bool true) ∧
      ((Call.submit token).next s).job = { s.job with state := .succeeded Counters.empty }
  ended : ∀ token p, s.job.plan = .ok p → (∀ t ∈ token, t.requested = .ok false) →
    ¬ Stops (.submit token) s → ¬ Unserved (.submit token) s →
    ∃ b, (Call.submit token).result s = .ok (.bool b) ∧
      ((Call.submit token).next s).job.state.label = if b then "SUCCEEDED" else "FAILED"

theorem failure_iff_failed (j : LocalJob σ τ) :
    (∃ t, j.answer .failure = .ok (.text t)) ↔ j.state.label = "FAILED" := by
  unfold answer
  cases j.state <;> simp [JobState.failure?, JobState.label]

theorem failureText_iff_failed (j : LocalJob σ τ) :
    (∃ v, j.answer .failureText = .ok v) ↔ j.state.label = "FAILED" := by
  unfold answer failureText
  cases j.state <;> simp [JobState.failure?, JobState.label, Except.map]

theorem counters_of_not_ended {j : LocalJob σ τ} (hsucceeded : j.state.label ≠ "SUCCEEDED")
    (hfailed : j.state.label ≠ "FAILED") : j.answer .counters = .ok (.map []) := by
  unfold answer
  cases hstate : j.state with
  | define => rfl
  | running => rfl
  | succeeded c =>
    rw [hstate] at hsucceeded
    exact absurd rfl hsucceeded
  | failed c text =>
    rw [hstate] at hfailed
    exact absurd rfl hfailed

theorem unsubmitted_of_kind (hconfig : s.job.config = .this c) {token : Option Token} {f : Failure}
    (hresult : (Call.submit token).result s = .error f) (hkind : f.kind = .jobSubmission)
    (hserved : ¬ Unserved (.submit token) s) :
    (Call.submit token).next s = s ∧ s.job.state = .define := by
  obtain ⟨succeeded, hsucceeded, hsubmits⟩ := submits_next hconfig token
  rw [hsucceeded] at hresult
  generalize (Call.submit token).next s = s' at hsubmits
  cases hsubmits with
  | refused f' plan =>
    cases hresult
    rcases kind_of_plan_error plan with ⟨hruntime, -⟩ | ⟨hdefine, -⟩
    · cases hruntime.symm.trans hkind
    · exact ⟨rfl, hdefine⟩
  | unopened p plan f' opening => exact absurd opening (opened_of_served hserved plan)
  | unheard p outcomes w ran f' heard => exact absurd heard (heard_of_served hserved ran.planned)
  | interrupted =>
    cases hresult
    cases hkind
  | untaken p outcomes w ran _ f' results =>
    cases hresult
    rcases collect_eq_error results with hhand | ⟨-, hordinary⟩
    · exact absurd ⟨token, p, rfl, ran.planned, .inr (.inr hhand)⟩ hserved
    · rw [Failure.isOrdinary, hkind] at hordinary
      cases hordinary
  | ended => cases hresult

/-- A submission whose splits are planned waits for its tasks unless its caller is told to stop. -/
theorem waits_of_plan (hconfig : s.job.config = .this c) {token : Option Token} {p : Plan σ τ}
    (hplan : s.job.plan = .ok p) (hwaits : isInterrupted token p.splits = .ok false)
    (hstops : ¬ Stops (.submit token) s) (hserved : ¬ Unserved (.submit token) s) :
    ∃ outcomes w results lines, Ran runTasks c s p outcomes w ∧
      outcomes.mapM resultOf = .ok results ∧
      (Call.submit token).result s = .ok (.bool (failures results).isEmpty) ∧
      (Call.submit token).next s = ⟨⟨w, lines⟩, { s.job with state := finalState results }⟩ := by
  obtain ⟨succeeded, hsucceeded, hsubmits⟩ := submits_next hconfig token
  rw [hsucceeded]
  generalize (Call.submit token).next s = s' at hsubmits
  cases hsubmits with
  | refused f plan => cases hplan.symm.trans plan
  | unopened p' plan f opening => exact absurd opening (opened_of_served hserved plan)
  | unheard p' outcomes w ran f heard => exact absurd heard (heard_of_served hserved ran.planned)
  | interrupted p' outcomes w ran told =>
    obtain rfl := Except.ok.inj (hplan.symm.trans ran.planned)
    cases hwaits.symm.trans told
  | untaken p' outcomes w ran _ f results =>
    exact absurd results (taken_of_served hconfig hstops hserved ran)
  | ended p' outcomes w ran _ results taken lines =>
    obtain rfl := Except.ok.inj (hplan.symm.trans ran.planned)
    obtain ⟨-, taken⟩ := (collect_eq_ok_iff (ends_runTasks.of_ran ran.on).length_eq).mp taken
    exact ⟨outcomes, w, results, lines, ran, taken, rfl, rfl⟩

theorem interrupted_of_plan (hconfig : s.job.config = .this c) {token : Option Token} {p : Plan σ τ}
    (hplan : s.job.plan = .ok p) (hopened : s.job.crew.opening = .ok ())
    (htold : isInterrupted token p.splits = .ok true) :
    (Call.submit token).result s = .error (.engine (.interrupted s.job.id)) ∧
      ((Call.submit token).next s).job = { s.job with state := .running } := by
  obtain ⟨succeeded, hsucceeded, hsubmits⟩ := submits_next hconfig token
  rw [hsucceeded]
  generalize (Call.submit token).next s = s' at hsubmits
  have hheard : ∀ {p' x}, s.job.plan = .ok p' → isInterrupted token p'.splits = x → x = .ok true := by
    rintro p' _ plan rfl
    obtain rfl := Except.ok.inj (hplan.symm.trans plan)
    exact htold
  cases hsubmits with
  | refused f plan => cases hplan.symm.trans plan
  | unopened p' plan f opening => cases hopened.symm.trans opening
  | unheard p' outcomes w ran f heard => cases hheard ran.planned heard
  | interrupted => exact ⟨rfl, rfl⟩
  | untaken p' outcomes w ran waited => cases hheard ran.planned waited
  | ended p' outcomes w ran waited => cases hheard ran.planned waited

theorem unwaited_of_plan (hconfig : s.job.config = .this c) {p : Plan σ τ}
    (hplan : s.job.plan = .ok p) (hopened : s.job.crew.opening = .ok ()) (hsplits : p.splits = [])
    (token : Option Token) :
    (Call.submit token).result s = .ok (.bool true) ∧
      ((Call.submit token).next s).job = { s.job with state := .succeeded Counters.empty } := by
  have hstops : ¬ Stops (.submit token) s := by
    rintro ⟨token', p', c', split, f, -, plan, -, hsplit, -⟩
    obtain rfl := Except.ok.inj (hplan.symm.trans plan)
    rw [hsplits] at hsplit
    cases hsplit
  have hwaits : ∀ token, isInterrupted token p.splits = .ok false := by
    intro token
    rw [hsplits]
    rfl
  have hserved : ¬ Unserved (.submit token) s := by
    rintro ⟨token', p', -, plan, hopening | ⟨f, hheard⟩ | hhand⟩
    · exact hopening hopened
    · obtain rfl := Except.ok.inj (hplan.symm.trans plan)
      cases (hwaits token').symm.trans hheard
    · obtain rfl := Except.ok.inj (hplan.symm.trans plan)
      refine hhand (forM_eq_ok_iff.mpr fun split hsplit => ?_)
      rw [hsplits] at hsplit
      cases hsplit
  obtain ⟨outcomes, w, results, lines, ran, taken, hresult, hnext⟩ :=
    waits_of_plan hconfig hplan (hwaits token) hstops hserved
  -- without splits there are no outcomes
  have hends := ends_runTasks.of_ran ran.on
  rw [hsplits, List.forall₂_nil_left_iff] at hends
  subst hends
  cases taken
  rw [hresult, hnext]
  exact ⟨rfl, rfl⟩

/-- **After any calls the state, the counters and the failure of a job agree**, if none of its tasks
stops the program. -/
theorem consistent_after_calls (journal : Journal σ) (crew : Crew) (c : Config.Flat) (id : String)
    (calls : List (Call σ τ)) (h : ¬ Happened Stops calls (fresh journal crew c id)) :
    Consistent calls (fresh journal crew c id) (after calls (fresh journal crew c id)) := by
  have hfresh : (fresh journal crew c id : Stage σ (LocalJob σ τ)).job.state = .define := rfl
  have hstart : (fresh journal crew c id : Stage σ (LocalJob σ τ)).job.config = .this c := rfl
  obtain ⟨hid, hconfig⟩ := same_after hstart calls
  have hdefine := after_iff_happened (P := fun s => s.job.state ≠ .define) (E := Plans)
    (fun hconfig call _ => not_define_next_iff hconfig call) hstart h
  rw [hfresh] at hdefine
  exact {
    id := hid
    define_iff := by rw [← hdefine.trans (or_iff_right (not_not_intro rfl)), not_not]
    settled := fun hne more => after_of_ne hconfig hne more
    running_iff := by
      intro hserved
      have hnone := (not_congr happened_or).mpr (not_or.mpr ⟨h, hserved⟩)
      have hrunning := after_iff_happened (P := fun s => s.job.state = .running) (E := Interrupted)
        (fun hconfig _ hgood => running_next_iff hconfig (not_or.mp hgood).1 (not_or.mp hgood).2)
        hstart hnone
      rw [hfresh] at hrunning
      exact hrunning.trans (or_iff_right nofun)
    failure_iff := failure_iff_failed _
    failureText_iff := failureText_iff_failed _
    counters := counters_of_not_ended
    refused := by
      intro hne call hcall
      obtain ⟨hnext, hresult⟩ := stands_of_ne hconfig hne call
      exact ⟨hresult hcall, hnext⟩
    unsubmitted := fun _ _ hresult hkind hserved => unsubmitted_of_kind hconfig hresult hkind hserved
    interrupted := fun _ _ hplan hopened hsplits ht =>
      interrupted_of_plan hconfig hplan hopened (told ht hsplits)
    unwaited := fun _ hplan hopened hsplits token =>
      unwaited_of_plan hconfig hplan hopened hsplits token
    ended := by
      intro token p hplan htoken hstops hserved
      obtain ⟨_, _, results, _, _, _, hresult, hnext⟩ :=
        waits_of_plan hconfig hplan (not_told htoken p.splits) hstops hserved
      refine ⟨_, hresult, ?_⟩
      rw [hnext, label_finalState] }

/-! ### A job with and without splits -/

/-- The calls that make a job ready for its submission. -/
def setUp (task : TaskClass σ τ) (reader : ReaderClass) : List (Call σ τ) :=
  [.assign (.task (.cls task)), .assign (.reader (.cls reader)), .assign (.reduceTasks (.int 0))]

theorem after_setUp (journal : Journal σ) (crew : Crew) (c : Config.Flat) (id : String)
    (task : TaskClass σ τ) (reader : ReaderClass) :
    after (setUp task reader) (fresh journal crew c id) =
      ⟨journal, ready crew c id task reader⟩ := by
  have hclasses : after (setUp task reader) (fresh journal crew c id) =
      (Call.assign (.reduceTasks (.int 0))).next ⟨journal,
        { (create crew (.this c) id : LocalJob σ τ) with task := some task, reader := some reader }⟩ :=
    rfl
  rw [hclasses, next_of_assign (assign_no_reduceTasks rfl)]
  rfl

/-- Tasks that do nothing. -/
def idle : TaskClass Unit Unit where
  name := "Idle"
  create := .ok ()
  setup := pure ()
  map _ := pure ()
  cleanup := pure ()

/-- A reader that plans these splits, and finds nothing in them. -/
def planning (splits : List Value) : ReaderClass where
  name := "Planning"
  create _ := .ok ⟨.ok splits, fun _ => ⟨[], none⟩⟩

/-- Two workers. -/
def twoThreads : Crew := ⟨.thread, .int 2⟩

/-- A token by which its owner was told to stop before he looked. -/
def stopToken : Token := ⟨.ok true, []⟩

def newJob : Stage Unit (LocalJob Unit Unit) :=
  fresh ⟨(), []⟩ twoThreads Config.Flat.empty "job"

/-- A job that is ready to run on these splits. -/
def idleJob (splits : List Value) : Stage Unit (LocalJob Unit Unit) :=
  after (setUp idle (planning splits)) newJob

theorem plan_idleJob (splits : List Value) :
    (idleJob splits).job.plan = .ok ⟨idle, planning splits, splits⟩ := by
  have hready := after_setUp ⟨(), []⟩ twoThreads Config.Flat.empty "job" idle (planning splits)
  exact (congrArg (fun s => s.job.plan) hready).trans (plan_ready rfl)

/-- **A job without splits succeeds though its caller was told to stop**: there is no task to wait
for. -/
theorem succeeds_without_splits :
    (idleJob []).job.plan = .ok ⟨idle, planning [], []⟩ ∧
      (Call.submit (some stopToken)).result (idleJob []) = .ok (.bool true) := by
  have hplan : (idleJob []).job.plan = .ok ⟨idle, planning [], []⟩ := plan_idleJob []
  have hconfig : (idleJob []).job.config = .this Config.Flat.empty := (same_after rfl _).2
  exact ⟨hplan, (unwaited_of_plan hconfig hplan rfl rfl (some stopToken)).1⟩

theorem happened_append {E : Call σ τ → Stage σ (LocalJob σ τ) → Prop}
    {calls calls' : List (Call σ τ)} :
    Happened E (calls ++ calls') s ↔
      Happened E calls s ∨ Happened E calls' (after calls s) := by
  induction calls generalizing s with
  | nil => simp [Happened, after]
  | cons call calls ih => simp only [List.cons_append, Happened, ih, or_assoc, after, List.foldl_cons]

/-- The calls that make a job ready and submit it, by a caller who was told to stop. -/
def stopping : List (Call Unit Unit) :=
  setUp idle (planning [.none]) ++ [.submit (some stopToken)]

/-- **A job with a split runs on if its caller was told to stop**, and cannot be submitted again. -/
theorem runs_with_splits :
    ¬ Happened Stops stopping newJob ∧ (after stopping newJob).job.state = .running ∧
      (Call.submit none).result (after stopping newJob) =
        .error (.engine (.notDefining "job" "RUNNING")) := by
  have hplan : (idleJob [.none]).job.plan = .ok ⟨idle, planning [.none], [.none]⟩ :=
    plan_idleJob [.none]
  have hsetUp : ¬ Happened Stops (setUp idle (planning [.none])) newJob := by
    rintro (h | h | h | h)
    · exact not_stops_assign h
    · exact not_stops_assign h
    · exact not_stops_assign h
    · exact h
  have hstops : ¬ Happened Stops stopping newJob := by
    rw [stopping, happened_append, not_or]
    refine ⟨hsetUp, ?_⟩
    rintro (⟨token, p, c, split, f, -, plan, -, -, ⟨w, hends⟩, -⟩ | h)
    · -- a task that does nothing does not fail
      obtain rfl := Except.ok.inj (hplan.symm.trans plan)
      cases hends
    · exact h
  have hready := consistent_after_calls ⟨(), []⟩ twoThreads Config.Flat.empty "job" _ hsetUp
  have hdone := consistent_after_calls ⟨(), []⟩ twoThreads Config.Flat.empty "job" _ hstops
  obtain ⟨-, hruns⟩ := hready.interrupted stopToken _ hplan rfl (List.cons_ne_nil _ _) rfl
  have hrunning : (after stopping newJob).job.state = .running := congrArg LocalJob.state hruns
  have hne : (after stopping newJob).job.state ≠ .define := by
    rw [hrunning]
    exact nofun
  have hid : (after stopping newJob).job.id = "job" := hdone.id
  have hrefused : (Call.submit none).result (after stopping newJob) =
      .error (.engine (.notDefining (after stopping newJob).job.id
        (after stopping newJob).job.state.label)) :=
    (hdone.refused hne (.submit none) nofun).1
  rw [hid, hrunning] at hrefused
  exact ⟨hstops, hrunning, hrefused⟩

end ScanJobs.Engine.LocalJob
