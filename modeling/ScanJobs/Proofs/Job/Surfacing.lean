import ScanJobs.Proofs.Job.Classified
import ScanJobs.Proofs.Job.Submission

/-! # Where submission errors surface

An engine may refuse a job twice: when it is asked to make one, and when the job is submitted. Only the
second refusal is told as a failed execution, with a code and the id of the job; the first leaves the
executor, and the runners, as it is (`Surfaces`). There is no third way for such an error to get out, if the
engine raises them nowhere else (`Engine.RaisesAsDeclared`): the counters of a job, the id and the text of
a failure give rise to other errors, or to none. -/

namespace ScanJobs

open Engine

variable {σ τ η : Type}

/-- The failure is that of an engine which does not take a job. -/
def Failure.IsRefusal (f : Failure) : Prop :=
  f.kind = .jobSubmission

/-- **The engine refuses a job only where it may**: when it makes one, and when one is submitted. What it
says of the id and of the failure of a job does not count, for no failure there gets out. -/
structure Engine.RaisesAsDeclared (e : Engine σ τ η) : Prop where
  assign : ∀ x, (e.assign x).FailsWith fun f => ¬ f.IsRefusal
  counters : e.counters.FailsWith fun f => ¬ f.IsRefusal

/-! ### Counters -/

namespace Metrics.Summary

theorem not_refusal_of_integerOf {v : Value} {f : Failure} (h : Counters.integerOf v = .error f) :
    ¬ f.IsRefusal := by
  have hspelled : ∀ {r : Except Numeral.Fault Int},
      Counters.integerOf.spelled v r = .error f → ¬ f.IsRefusal := by
    intro r hr
    cases r with
    | ok n => cases hr
    | error fault =>
      cases hr
      intro hkind
      cases hkind
  unfold Counters.integerOf at h
  split at h
  · split at h
    · cases h
    · cases h
      intro hkind
      cases hkind
    · cases h
      intro hkind
      cases hkind
  · exact hspelled h
  · split at h
    · cases h
    · exact hspelled h
    · cases h
      intro hkind
      cases hkind

theorem not_refusal_of_entries {v : Value} {f : Failure} (h : v.entries = .error f) :
    ¬ f.IsRefusal := by
  unfold Value.entries at h
  split at h
  · cases h
  · cases h
    intro hkind
    cases hkind

/-- **Counters that have no metrics are no refusal.** -/
theorem not_refusal_of_ofValue {v : Value} {f : Failure} (h : ofValue v = .error f) :
    ¬ f.IsRefusal := by
  rcases bind_eq_error_iff.mp h with hgroups | ⟨gs, -, hgroups⟩
  · exact not_refusal_of_entries hgroups
  obtain ⟨m, g, -, hgroup⟩ := exists_of_foldlM_error hgroups
  rcases bind_eq_error_iff.mp hgroup with hcounters | ⟨cs, -, hcounters⟩
  · exact not_refusal_of_entries hcounters
  obtain ⟨m', c, -, hcounter⟩ := exists_of_foldlM_error hcounters
  rcases bind_eq_error_iff.mp hcounter with hn | ⟨n, -, hn⟩
  · exact not_refusal_of_integerOf hn
  · cases hn

end Metrics.Summary

namespace Job

/-! ### The executor -/

/-- **What becomes of the refusals of an engine** in a run of a job, which ends with `r`. -/
structure Surfaces {α : Type} (e : Engine σ τ η) (d : Descriptor σ τ) (config : Given Config.Flat)
    (token : Option Token) (j : Journal σ) (r : Except Failure α) : Prop where
  /-- If a job that was made and set up is refused, its execution has failed, with the submission code and
  the id of the job. -/
  submitted : ∀ {job j₁ s₀ f}, (e.create config).on j = (.ok job, j₁) →
    (d.settings.forM e.assign).on ⟨j₁, job⟩ = (.ok (), s₀) →
    ((e.submit token).on (announced e d s₀)).1 = .error f → f.IsRefusal →
    ∃ f', r = .error f' ∧ f'.kind = .execution ∧ f'.code? = some "JOB_SUBMISSION_ERROR" ∧
      f'.jobId? = f.jobId? ∧
      f'.message = "Job " ++ d.name.plain ++ " could not be submitted: " ++ f.message
  /-- If no job is made, the failure is that of the engine. -/
  unmade : ∀ {f}, ((e.create config).on j).1 = .error f → r = .error f
  /-- A refusal gets out as it is exactly if it was to make a job. -/
  raw : (∃ f, r = .error f ∧ f.IsRefusal) ↔ ∃ f, ((e.create config).on j).1 = .error f ∧ f.IsRefusal

variable {e : Engine σ τ η} {d : Descriptor σ τ} {config : Given Config.Flat} {token : Option Token}
  {j j₁ : Journal σ} {job : η} {s₀ : Stage σ η} {f : Failure}

theorem execute_unmade (h : ((e.create config).on j).1 = .error f) :
    ((execute (some e) (some d) config token).on j).1 = .error f :=
  congrArg Prod.fst (Act.on_bind_fst_error h _)

/-- A job that was made is set up, announced and concluded. -/
theorem execute_made (h : (e.create config).on j = (.ok job, j₁)) :
    ((execute (some e) (some d) config token).on j).1 =
      ((carryOut e d token).on ⟨j₁, job⟩).1 :=
  congrArg Prod.fst (Act.on_bind_ok h)

/-- **A verdict refuses no job.** -/
theorem verdict_not_refusal {told : Except Failure Bool} {metrics : Except Failure Metrics.Summary}
    {failure : Except Failure (Value × Value)} (hmetrics : ∀ f, metrics = .error f → ¬ f.IsRefusal)
    (h : verdict d told metrics failure = .error f) : ¬ f.IsRefusal := by
  unfold verdict at h
  split at h
  · cases h
    unfold refusal
    split
    · intro hkind
      cases hkind
    · next hkind => exact hkind
  · exact hmetrics f (map_eq_error_iff.mp h)
  · cases h
  · split at h
    · cases h
    · next hordinary =>
      cases h
      intro hkind
      have hord : f.isOrdinary = true := congrArg Failure.Kind.isOrdinary hkind
      exact hordinary hord

theorem counted_not_refusal (he : e.RaisesAsDeclared) {s : Stage σ η}
    (h : counted e s = .error f) : ¬ f.IsRefusal := by
  rcases counted_eq_error_iff.mp h with hcounters | ⟨v, -, hv⟩
  · exact he.counters s f hcounters
  · exact Metrics.Summary.not_refusal_of_ofValue hv

/-- **What is done with a job that was made** ends in no refusal. -/
theorem carryOut_not_refusal (he : e.RaisesAsDeclared) (s : Stage σ η)
    (h : ((carryOut e d token).on s).1 = .error f) : ¬ f.IsRefusal := by
  cases hsettings : (d.settings.forM e.assign).on s with
  | mk result s₀ =>
    cases result with
    | error f' =>
      rw [carryOut, Act.on_bind_error hsettings] at h
      cases h
      exact Act.failsWith_forM he.assign d.settings s f (congrArg Prod.fst hsettings)
    | ok u =>
      obtain ⟨told, s', hsubmit⟩ : ∃ told s', (e.submit token).on (announced e d s₀) = (told, s') :=
        ⟨_, _, rfl⟩
      rw [carryOut_settled hsettings, (conclude_on d hsubmit).1] at h
      exact verdict_not_refusal (fun _ => counted_not_refusal he) h

theorem surfaces_execute (he : e.RaisesAsDeclared) (d : Descriptor σ τ) (config : Given Config.Flat)
    (token : Option Token) (j : Journal σ) :
    Surfaces e d config token j ((execute (some e) (some d) config token).on j).1 where
  submitted := by
    intro job j₁ s₀ f created settled hsubmit hkind
    obtain ⟨s, hs⟩ : ∃ s, (e.submit token).on (announced e d s₀) = (.error f, s) :=
      ⟨_, Prod.ext hsubmit rfl⟩
    rw [execute_made created, carryOut_settled settled, (conclude_on d hs).1]
    exact (classified_verdict e d (.error f) s).refused f rfl hkind
  unmade := execute_unmade
  raw := by
    constructor
    · rintro ⟨f, hf, hkind⟩
      cases hmade : (e.create config).on j with
      | mk result j₁ =>
        cases result with
        | error f' =>
          rw [execute_unmade (congrArg Prod.fst hmade)] at hf
          cases hf
          exact ⟨f, rfl, hkind⟩
        | ok job =>
          rw [execute_made hmade] at hf
          exact absurd hkind (carryOut_not_refusal he _ hf)
    · rintro ⟨f, hf, hkind⟩
      exact ⟨f, execute_unmade hf, hkind⟩

/-! ### The runners -/

/-- An outcome with no metrics is no refusal. -/
theorem Surfaces.metrics {r : Except Failure Outcome} (h : Surfaces e d config token j r) :
    Surfaces e d config token j (r >>= Outcome.metrics) where
  submitted created settled hsubmit hkind := by
    obtain ⟨f', rfl, hf'⟩ := h.submitted created settled hsubmit hkind
    exact ⟨f', rfl, hf'⟩
  unmade hf := by
    rw [h.unmade hf]
    rfl
  raw := by
    rw [← h.raw]
    constructor
    · rintro ⟨f, hf, hkind⟩
      rcases bind_eq_error_iff.mp hf with hr | ⟨o, -, ho⟩
      · exact ⟨f, hr, hkind⟩
      · unfold Outcome.metrics at ho
        split at ho <;> cases ho <;> cases hkind
    · rintro ⟨f, rfl, hkind⟩
      exact ⟨f, rfl, hkind⟩

/-- A request that is prepared is executed. -/
theorem executeRequest_prepared {r : Request σ τ} {s : Desk σ}
    (h : (r.prepare []).on s.config = (.ok d, config)) :
    ((executeRequest e r token).on s).1 =
      ((execute (some e) (some d) config token).on s.journal).1 := by
  have hconfig : (Desk.onConfig (r.prepare [])).on s = (.ok d, ⟨config, s.journal⟩) := by
    rw [on_onConfig, h]
  exact congrArg Prod.fst (Act.on_bind_ok hconfig)

/-- **No refusal gets out of the executor or the runners as it is, but one to make a job.** -/
theorem refusals_surface (he : e.RaisesAsDeclared) (d : Descriptor σ τ) (config : Given Config.Flat)
    (token : Option Token) :
    (∀ j, Surfaces e d config token j ((execute (some e) (some d) config token).on j).1) ∧
    ∀ (r : Request σ τ) (s : Desk σ), (r.prepare []).on s.config = (.ok d, config) →
      Surfaces e d config token s.journal ((executeRequest e r token).on s).1 ∧
        Surfaces e d config token s.journal ((runRequest e r token).on s).1 := by
  refine ⟨surfaces_execute he d config token, fun r s hprepared => ?_⟩
  have hrequest : Surfaces e d config token s.journal ((executeRequest e r token).on s).1 := by
    rw [executeRequest_prepared hprepared]
    exact surfaces_execute he d config token s.journal
  refine ⟨hrequest, ?_⟩
  have hrun := Act.on_bind_ofExcept (executeRequest e r token) Outcome.metrics s
  rw [runRequest, hrun]
  exact hrequest.metrics

/-! ### Two engines without slots -/

/-- No slots are left for a job. -/
def noSlots : Failure :=
  .raised ⟨.jobSubmission, .text "no slots", .none, some (.text "job_0001")⟩

/-- An engine that makes jobs and runs none. -/
def fullEngine : Engine Unit Unit Unit :=
  { mute with submit := fun _ => throw noSlots }

/-- An engine that makes no jobs. -/
def closedEngine : Engine Unit Unit Unit :=
  { mute with create := fun _ => throw noSlots }

/-- What the mute engine is asked to run, as a request. -/
def idleRequest : Request Unit Unit :=
  ⟨.nothing, .nothing, .cls (LocalJob.splitting []), .text "tally", .cls LocalJob.tallying⟩

/-- One engine tells of the slots when the job is submitted, and the run is a failed execution. The other
tells of them when it is to make the job, and its failure gets out as it is. -/
theorem no_slots_surface :
    (∃ f, ((runRequest fullEngine idleRequest none).on ⟨.this Config.Flat.empty, .start ()⟩).1 =
        .error f ∧ f.kind = .execution ∧ f.code? = some "JOB_SUBMISSION_ERROR" ∧
          f.jobId? = some (.text "job_0001")) ∧
      ((runRequest closedEngine idleRequest none).on ⟨.this Config.Flat.empty, .start ()⟩).1 =
        .error noSlots ∧ noSlots.IsRefusal := by
  have hfull : fullEngine.RaisesAsDeclared := ⟨fun _ => Act.failsWith_pure (), Act.failsWith_pure _⟩
  have hclosed : closedEngine.RaisesAsDeclared := ⟨fun _ => Act.failsWith_pure (), Act.failsWith_pure _⟩
  have hprepared : (idleRequest.prepare []).on (.this Config.Flat.empty) =
      (.ok idleDescriptor, .this Config.Flat.empty) := rfl
  have hsettled : (idleDescriptor.settings.forM fullEngine.assign).on ⟨.start (), ()⟩ =
      (.ok (), ⟨.start (), ()⟩) := rfl
  have hrun := ((refusals_surface hfull idleDescriptor (.this Config.Flat.empty) none).2 idleRequest
    ⟨.this Config.Flat.empty, .start ()⟩ hprepared).2
  have hrun' := ((refusals_surface hclosed idleDescriptor (.this Config.Flat.empty) none).2 idleRequest
    ⟨.this Config.Flat.empty, .start ()⟩ hprepared).2
  refine ⟨?_, hrun'.unmade rfl, rfl⟩
  obtain ⟨f, hf, hkind, hcode, hid, -⟩ := hrun.submitted (f := noSlots) rfl hsettled rfl rfl
  exact ⟨f, hf, hkind, hcode, hid⟩

end Job

end ScanJobs
