import ScanJobs.Proofs.Engine.Watched
import ScanJobs.Proofs.Job.Outcomes

/-! # How executions are classified

What comes of a job that was made and set up is a function of what the engine answers (`verdict`): to its
submission first, then to the question for its counters if it succeeded, and to those for its id and the
text of its failure if it did not. Nothing is asked that need not be known, and nothing twice. -/

namespace ScanJobs.Job

open Engine

variable {σ τ η : Type}

/-! ### What the engine answers -/

/-- The stage on which a job is submitted, which was announced. -/
def announced (e : Engine σ τ η) (d : Descriptor σ τ) (s : Stage σ η) : Stage σ η :=
  ((note .info ("Submitting job " ++ d.name.plain ++ " to engine " ++ e.name.plain)).on s).2

/-- The engine does not tell what became of a failed job, for this reason. -/
def Untold (e : Engine σ τ η) (s : Stage σ η) (f : Failure) : Prop :=
  (e.jobId.on s).1 = .error f ∨
    ∃ id s', e.jobId.on s = (.ok id, s') ∧ (e.failureText.on s').1 = .error f

/-- The metrics of a job that succeeded cannot be had, for this reason. -/
def Uncounted (e : Engine σ τ η) (s : Stage σ η) (f : Failure) : Prop :=
  (e.counters.on s).1 = .error f ∨
    ∃ v, (e.counters.on s).1 = .ok v ∧ Metrics.Summary.ofValue v = .error f

theorem readFailure_eq_ok_iff {e : Engine σ τ η} {s : Stage σ η} {id text : Value} :
    ((readFailure e).on s).1 = .ok (id, text) ↔
      ∃ s', e.jobId.on s = (.ok id, s') ∧ (e.failureText.on s').1 = .ok text := by
  constructor
  · intro h
    rcases Act.on_bind_cases (Prod.ext h rfl) with ⟨f, -, hf⟩ | ⟨id', s', hid, h⟩
    · cases hf
    rcases Act.on_bind_cases h with ⟨f, -, hf⟩ | ⟨text', s'', htext, h⟩
    · cases hf
    obtain ⟨hpair, -⟩ := Prod.mk.inj h
    cases hpair
    exact ⟨s', hid, congrArg Prod.fst htext⟩
  · rintro ⟨s', hid, htext⟩
    rw [readFailure, Act.on_bind_ok hid, Act.on_bind_fst_ok htext]
    rfl

theorem readFailure_eq_error_iff {e : Engine σ τ η} {s : Stage σ η} {f : Failure} :
    ((readFailure e).on s).1 = .error f ↔ Untold e s f := by
  constructor
  · intro h
    rcases Act.on_bind_cases (Prod.ext h rfl) with ⟨f', hid, hf⟩ | ⟨id, s', hid, h⟩
    · cases hf
      exact .inl (congrArg Prod.fst hid)
    rcases Act.on_bind_cases h with ⟨f', htext, hf⟩ | ⟨text, s'', -, h⟩
    · cases hf
      exact .inr ⟨id, s', hid, congrArg Prod.fst htext⟩
    · cases h
  · rintro (hid | ⟨id, s', hid, htext⟩)
    · rw [readFailure, Act.on_bind_fst_error hid]
    · rw [readFailure, Act.on_bind_ok hid, Act.on_bind_fst_error htext]

/-- The metrics that the engine's counters are translated to. -/
def counted (e : Engine σ τ η) (s : Stage σ η) : Except Failure Metrics.Summary :=
  (e.counters.on s).1 >>= Metrics.Summary.ofValue

theorem counted_eq_error_iff {e : Engine σ τ η} {s : Stage σ η} {f : Failure} :
    counted e s = .error f ↔ Uncounted e s f :=
  bind_eq_error_iff

/-! ### The verdict -/

/-- The outcome of a job with these metrics. -/
def successOf (d : Descriptor σ τ) (m : Metrics.Summary) : Outcome :=
  ⟨d.name, .succeeded m, d.begun ++ [d.event .succeeded [("counter_count", .int m.all.length)]]⟩

/-- **What comes of a job**, by what the engine told of its end, and then of its counters or of its
failure. -/
def verdict (d : Descriptor σ τ) (told : Except Failure Bool)
    (metrics : Except Failure Metrics.Summary) (failure : Except Failure (Value × Value)) :
    Except Failure Outcome :=
  match told, failure with
  | .error f, _ => .error (refusal d f)
  | .ok true, _ => metrics.map (successOf d)
  | .ok false, .ok p => .ok (failureOf d (.ok p))
  | .ok false, .error f => if f.isOrdinary then .ok (failureOf d (.error f)) else .error f

/-- Of a job that succeeded the counters are read, and nothing more is done with it. -/
theorem whenSucceeded_on (e : Engine σ τ η) (d : Descriptor σ τ) (s : Stage σ η) :
    ((whenSucceeded e d).on s).1 = (counted e s).map (successOf d) ∧
      ((whenSucceeded e d).on s).2.job = (e.counters.on s).2.job := by
  cases hcounted : counted e s with
  | ok m =>
    obtain ⟨v, hv, hm⟩ := bind_eq_ok_iff.mp hcounted
    rw [whenSucceeded, Act.on_bind_fst_ok hv, Act.on_ofExcept_bind_ok hm]
    exact ⟨rfl, rfl⟩
  | error f =>
    rcases counted_eq_error_iff.mp hcounted with hv | ⟨v, hv, hm⟩
    · rw [whenSucceeded, Act.on_bind_fst_error hv]
      exact ⟨rfl, rfl⟩
    · rw [whenSucceeded, Act.on_bind_fst_ok hv, Act.on_ofExcept_bind_error hm]
      exact ⟨rfl, rfl⟩

/-- Of a job that failed the id and the failure are read, and nothing more is done with it. -/
theorem whenFailed_on (e : Engine σ τ η) (d : Descriptor σ τ) (s : Stage σ η)
    (metrics : Except Failure Metrics.Summary) :
    ((whenFailed e d).on s).1 = verdict d (.ok false) metrics ((readFailure e).on s).1 ∧
      ((whenFailed e d).on s).2.job = ((readFailure e).on s).2.job := by
  have hattempt := Act.on_attempt (readFailure e) s
  rw [whenFailed, Act.on_bind_ok hattempt]
  cases ((readFailure e).on s).1 with
  | ok p => exact ⟨rfl, rfl⟩
  | error f =>
    cases hf : f.isOrdinary with
    | true =>
      have hnote : noteUnreadable d (.error f) =
          (note .warning ("Unable to read status of failed job " ++ d.name.plain ++ ": " ++ f.message) :
            Act (Stage σ η) Unit) := if_pos hf
      rw [hnote, verdict, if_pos hf]
      exact ⟨rfl, rfl⟩
    | false =>
      have hnot : ¬f.isOrdinary = true := by simp [hf]
      have hnote : noteUnreadable d (.error f) = (throw f : Act (Stage σ η) Unit) := if_neg hnot
      rw [hnote, verdict, if_neg hnot]
      exact ⟨rfl, rfl⟩

/-- The job as it is after all that was asked about it. -/
def lastOf (e : Engine σ τ η) (s : Stage σ η) : Except Failure Bool → η
  | .error _ => s.job
  | .ok true => (e.counters.on s).2.job
  | .ok false => ((readFailure e).on s).2.job

/-- **A job that was submitted comes to the verdict.** -/
theorem conclude_on {e : Engine σ τ η} (d : Descriptor σ τ) {token : Option Token}
    {s s' : Stage σ η} {told : Except Failure Bool} (h : (e.submit token).on s = (told, s')) :
    ((conclude e d token).on s).1 =
        verdict d told (counted e s') ((readFailure e).on s').1 ∧
      ((conclude e d token).on s).2.job = lastOf e s' told := by
  cases told with
  | error f =>
    refine ⟨conclude_error d h, ?_⟩
    have hattempt := Act.on_attempt (e.submit token) s
    rw [h] at hattempt
    have hsubmit : (submitJob e d token).on s = (.error (refusal d f), s') :=
      Act.on_bind_ok hattempt
    rw [conclude, Act.on_bind_error hsubmit]
    rfl
  | ok b =>
    rw [conclude_ok d h]
    cases b with
    | true => exact whenSucceeded_on e d s'
    | false => exact whenFailed_on e d s' _

/-! ### The classes -/

/-- The state on which the timeline of an outcome ends. -/
def lastPhase : Result → Phase
  | .succeeded _ => .succeeded
  | .failed .. | .unreadable => .failed

/-- **What came of a job is classified** by what the engine told on its submission, and what it answers
on the stage that this left. -/
structure Classified (e : Engine σ τ η) (d : Descriptor σ τ) (told : Except Failure Bool)
    (s : Stage σ η) (r : Except Failure Outcome) : Prop where
  refused : ∀ f, told = .error f → f.kind = .jobSubmission → ∃ f', r = .error f' ∧
    f'.kind = .execution ∧ f'.code? = some "JOB_SUBMISSION_ERROR" ∧ f'.jobId? = f.jobId? ∧
    f'.message = "Job " ++ d.name.plain ++ " could not be submitted: " ++ f.message
  /-- Interruptions included. -/
  propagated : ∀ f, told = .error f → f.kind ≠ .jobSubmission → r = .error f
  succeeded : ∀ m, (∃ o, r = .ok o ∧ o.result = .succeeded m) ↔
    told = .ok true ∧ ∃ v, (e.counters.on s).1 = .ok v ∧ Metrics.Summary.ofValue v = .ok m
  uncounted : told = .ok true → ∀ f, Uncounted e s f → r = .error f
  failed : ∀ id text, (∃ o, r = .ok o ∧ o.result = .failed id text) ↔
    told = .ok false ∧ ∃ s', e.jobId.on s = (.ok id, s') ∧ (e.failureText.on s').1 = .ok text
  unreadable : (∃ o, r = .ok o ∧ o.result = .unreadable) ↔
    told = .ok false ∧ ∃ f, Untold e s f ∧ f.isOrdinary = true
  /-- An interruption is none of the answers of an engine. -/
  stopped : told = .ok false → ∀ f, Untold e s f → f.isOrdinary = false → r = .error f
  timeline : ∀ o, r = .ok o → o.jobName = d.name ∧
    o.timeline.map (fun v => (v.phase, v.jobName)) =
      [(.built, d.name), (.running, d.name), (lastPhase o.result, d.name)]

/-- **There are three ways to an outcome.** -/
theorem verdict_cases {d : Descriptor σ τ} {told : Except Failure Bool}
    {metrics : Except Failure Metrics.Summary} {failure : Except Failure (Value × Value)} {o : Outcome}
    (h : verdict d told metrics failure = .ok o) :
    (told = .ok true ∧ ∃ m, metrics = .ok m ∧ o = successOf d m) ∨
    (told = .ok false ∧ ∃ p, failure = .ok p ∧ o = failureOf d (.ok p)) ∨
    told = .ok false ∧ ∃ f, failure = .error f ∧ f.isOrdinary = true ∧
      o = failureOf d (.error f) := by
  unfold verdict at h
  split at h
  · cases h
  · obtain ⟨m, hm, rfl⟩ := map_eq_ok_iff.mp h
    exact .inl ⟨rfl, m, hm, rfl⟩
  · exact .inr (.inl ⟨rfl, _, rfl, (Except.ok.inj h).symm⟩)
  · split at h
    · next hordinary => exact .inr (.inr ⟨rfl, _, rfl, hordinary, (Except.ok.inj h).symm⟩)
    · cases h

/-- **A verdict classifies**: each class is told by the engine's answers alone. -/
theorem classified_verdict (e : Engine σ τ η) (d : Descriptor σ τ) (told : Except Failure Bool)
    (s : Stage σ η) :
    Classified e d told s (verdict d told (counted e s) ((readFailure e).on s).1) where
  refused f htold hkind := by
    subst htold
    exact ⟨_, congrArg Except.error (if_pos hkind), rfl, rfl, rfl, rfl⟩
  propagated f htold hkind := by
    subst htold
    exact congrArg Except.error (if_neg hkind)
  succeeded m := by
    rw [← bind_eq_ok_iff]
    change _ ↔ told = .ok true ∧ counted e s = .ok m
    constructor
    · rintro ⟨o, ho, hresult⟩
      rcases verdict_cases ho with ⟨htold, m', hm, rfl⟩ | ⟨-, p, -, rfl⟩ | ⟨-, f, -, -, rfl⟩
      · cases hresult
        exact ⟨htold, hm⟩
      · cases hresult
      · cases hresult
    · rintro ⟨rfl, hm⟩
      exact ⟨successOf d m, map_eq_ok_iff.mpr ⟨m, hm, rfl⟩, rfl⟩
  uncounted htold f hf := by
    subst htold
    exact map_eq_error_iff.mpr (counted_eq_error_iff.mpr hf)
  failed id text := by
    rw [← readFailure_eq_ok_iff]
    constructor
    · rintro ⟨o, ho, hresult⟩
      rcases verdict_cases ho with ⟨-, m, -, rfl⟩ | ⟨htold, p, hp, rfl⟩ | ⟨-, f, -, -, rfl⟩
      · cases hresult
      · cases hresult
        exact ⟨htold, hp⟩
      · cases hresult
    · rintro ⟨rfl, hread⟩
      rw [hread]
      exact ⟨_, rfl, rfl⟩
  unreadable := by
    simp only [← readFailure_eq_error_iff]
    constructor
    · rintro ⟨o, ho, hresult⟩
      rcases verdict_cases ho with ⟨-, m, -, rfl⟩ | ⟨-, p, -, rfl⟩ | ⟨htold, f, hf, hordinary, -⟩
      · cases hresult
      · cases hresult
      · exact ⟨htold, f, hf, hordinary⟩
    · rintro ⟨rfl, f, hread, hordinary⟩
      rw [hread]
      exact ⟨_, if_pos hordinary, rfl⟩
  stopped htold f hf hordinary := by
    subst htold
    rw [readFailure_eq_error_iff.mpr hf]
    exact if_neg (by simp [hordinary])
  timeline o ho := by
    rcases verdict_cases ho with ⟨-, m, -, rfl⟩ | ⟨-, p, -, rfl⟩ | ⟨-, f, -, -, rfl⟩
    · exact ⟨rfl, rfl⟩
    · exact ⟨rfl, rfl⟩
    · exact ⟨rfl, rfl⟩

/-! ### The calls -/

/-- What is asked about a job after it was submitted, by what the engine told. -/
def asked (e : Engine σ τ η) (s : Stage σ η) : Except Failure Bool → List (PortCall σ τ)
  | .error _ => []
  | .ok true => [.counters]
  | .ok false =>
    match (e.jobId.on s).1 with
    | .ok _ => [.jobId, .failureText]
    | .error _ => [.jobId]

/-- Settings that are all taken are written down one after the other. -/
theorem settings_watched (e : Engine σ τ η) {settings : List (Setting σ τ)} {s s' : Stage σ η}
    (h : (settings.forM e.assign).on s = (.ok (), s')) (calls : List (PortCall σ τ)) :
    (settings.forM e.watched.assign).on (s.watched calls) =
      (.ok (), s'.watched (calls ++ settings.map PortCall.assign)) := by
  induction settings generalizing s calls with
  | nil =>
    obtain ⟨-, rfl⟩ := Prod.mk.inj h
    rw [List.map_nil, List.append_nil]
    rfl
  | cons x settings ih =>
    rcases Act.on_bind_cases h with ⟨f, -, hf⟩ | ⟨u, s₁, hfirst, hrest⟩
    · cases hf
    have hcall : (e.watched.assign x).on (s.watched calls) =
        (.ok u, s₁.watched (calls ++ [PortCall.assign x])) := by
      rw [Engine.watched, called_on, hfirst]
    refine (Act.on_bind_ok hcall).trans ((ih hrest _).trans ?_)
    rw [List.append_assoc]
    rfl

/-- The text of a failure is asked for if there is an id. -/
theorem readFailure_watched (e : Engine σ τ η) (s : Stage σ η) (calls : List (PortCall σ τ)) :
    ((readFailure e.watched).on (s.watched calls)).2.job.calls = calls ++ asked e s (.ok false) := by
  have hid : e.watched.jobId.on (s.watched calls) =
      ((e.jobId.on s).1, (e.jobId.on s).2.watched (calls ++ [PortCall.jobId])) := called_on ..
  unfold asked
  cases hread : (e.jobId.on s).1 with
  | error f =>
    rw [hread] at hid
    rw [readFailure, Act.on_bind_error hid]
    rfl
  | ok id =>
    rw [hread] at hid
    rw [readFailure, Act.on_bind_ok hid]
    have htext := called_on PortCall.failureText e.failureText (e.jobId.on s).2
      (calls ++ [PortCall.jobId])
    change ((called PortCall.failureText e.failureText >>= fun text => pure (id, text)).on _).2.job.calls =
      _
    rw [Act.on_bind, htext]
    -- whether there is a text or not, it was asked for
    cases (e.failureText.on (e.jobId.on s).2).1 with
    | ok text => exact List.append_assoc ..
    | error f => exact List.append_assoc ..

/-- After a submission the job has written down what it was asked. -/
theorem lastOf_watched (e : Engine σ τ η) (s : Stage σ η) (calls : List (PortCall σ τ))
    (told : Except Failure Bool) :
    (lastOf e.watched (s.watched calls) told).calls = calls ++ asked e s told := by
  cases told with
  | error f => exact (List.append_nil calls).symm
  | ok b =>
    cases b with
    | true => rfl
    | false => exact readFailure_watched e s calls

/-- A job that takes its settings is announced and then concluded. -/
theorem carryOut_settled {e : Engine σ τ η} {d : Descriptor σ τ} {s s' : Stage σ η}
    (h : (d.settings.forM e.assign).on s = (.ok (), s')) (token : Option Token) :
    (carryOut e d token).on s = (conclude e d token).on (announced e d s') :=
  (Act.on_bind_ok h).trans (Act.on_bind_ok rfl)

/-- **An execution whose job is made and set up is classified**, by what the engine answers to the calls
that are made: one to submit the job, and after it those that its answer calls for. -/
theorem execution_classified (e : Engine σ τ η) (d : Descriptor σ τ) (config : Given Config.Flat)
    (token : Option Token) {j j₁ : Journal σ} {job : η} {s₀ : Stage σ η}
    (created : (e.create config).on j = (.ok job, j₁))
    (settled : (d.settings.forM e.assign).on ⟨j₁, job⟩ = (.ok (), s₀)) :
    ∃ told s, (e.submit token).on (announced e d s₀) = (told, s) ∧
      Classified e d told s ((execute (some e) (some d) config token).on j).1 ∧
      execute (some e.watched) (some d) config token = execute (some e) (some d) config token ∧
      callsOf e d token config j =
        PortCall.create config :: d.settings.map PortCall.assign ++
          PortCall.submit token :: asked e s told := by
  obtain ⟨told, s, hsubmit⟩ : ∃ told s, (e.submit token).on (announced e d s₀) = (told, s) :=
    ⟨_, _, rfl⟩
  refine ⟨told, s, hsubmit, ?classes, execute_watched e d token config, ?calls⟩
  case classes =>
    have hexecute : (execute (some e) (some d) config token).on j =
        (withJob job (carryOut e d token)).on j₁ := Act.on_bind_ok created
    have hresult : ((execute (some e) (some d) config token).on j).1 =
        verdict d told (counted e s) ((readFailure e).on s).1 := by
      rw [hexecute, withJob, Act.on_ofFun, carryOut_settled settled, ← (conclude_on d hsubmit).1]
    rw [hresult]
    exact classified_verdict e d told s
  case calls =>
    have hcreated : (e.watched.create config).on j = (.ok ⟨job, [.create config]⟩, j₁) :=
      Act.on_bind_ok created
    have hsettled := settings_watched e settled [.create config]
    have hsubmitted : ∀ before, (e.watched.submit token).on (announced e.watched d (s₀.watched before)) =
        (told, s.watched (before ++ [PortCall.submit token])) := by
      intro before
      have hcalled := called_on (.submit token) (e.submit token) (announced e d s₀) before
      rw [hsubmit] at hcalled
      exact hcalled
    rw [callsOf, hcreated]
    change ((carryOut e.watched d token).on (Stage.watched ⟨j₁, job⟩ [.create config])).2.job.calls = _
    rw [carryOut_settled hsettled, (conclude_on d (hsubmitted _)).2, lastOf_watched]
    simp

/-- An engine that tells of each job that it failed, but not why. -/
def mute : Engine Unit Unit Unit where
  name := .text "mute"
  create _ := pure ()
  assign _ := pure ()
  submit _ := pure false
  jobId := pure (.text "job")
  counters := pure .none
  failureText := throw (.blank "text")

/-- What a scan job without splits is to an engine. -/
def idleDescriptor : Descriptor Unit Unit :=
  descriptorOf "tally" LocalJob.tallying (LocalJob.splitting [])

/-- Of a job on the mute engine it is told that it failed, and its text is asked for in vain. -/
theorem mute_unreadable :
    (mute.create .nothing).on (.start ()) = (.ok (), .start ()) ∧
    (idleDescriptor.settings.forM mute.assign).on ⟨.start (), ()⟩ = (.ok (), ⟨.start (), ()⟩) ∧
    (∃ o, ((execute (some mute) (some idleDescriptor) .nothing none).on (.start ())).1 = .ok o ∧
      o.result = .unreadable) ∧
    callsOf mute idleDescriptor none .nothing (.start ()) = PortCall.create .nothing ::
      idleDescriptor.settings.map PortCall.assign ++
        [PortCall.submit none, PortCall.jobId, PortCall.failureText] := by
  have hsettled : (idleDescriptor.settings.forM mute.assign).on ⟨.start (), ()⟩ =
      (.ok (), ⟨.start (), ()⟩) := rfl
  obtain ⟨told, s, hsubmit, hclass, -, hcalls⟩ :=
    execution_classified mute idleDescriptor .nothing none rfl hsettled
  obtain ⟨rfl, rfl⟩ := Prod.mk.inj hsubmit
  refine ⟨rfl, hsettled, ?_, hcalls⟩
  exact hclass.unreadable.mpr ⟨rfl, .blank "text", .inr ⟨_, _, rfl, rfl⟩, rfl⟩

end ScanJobs.Job
