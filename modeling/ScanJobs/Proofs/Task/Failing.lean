import ScanJobs.Engine.LocalJob
import ScanJobs.Proofs.Fallible

/-! # How tasks fail

Tasks and readers whose own failures are ordinary fail in no other way: planning the splits does
(`ReaderClass.Ordinary.splitsOf`), and so does the whole life of a task (`TaskClass.Ordinary.run`). -/

namespace ScanJobs

variable {σ τ : Type}

/-- **Objects of the class have ordinary failures only.** -/
structure TaskClass.Ordinary (c : TaskClass σ τ) : Prop where
  create : ∀ f, c.create = .error f → f.isOrdinary = true
  setup : c.setup.FailsWith (·.isOrdinary = true)
  map : ∀ r, (c.map r).FailsWith (·.isOrdinary = true)
  cleanup : c.cleanup.FailsWith (·.isOrdinary = true)

/-- **Readers of the class have ordinary failures only**, in whatever they do. -/
structure ReaderClass.Ordinary (c : ReaderClass) : Prop where
  create : ∀ config f, c.create config = .error f → f.isOrdinary = true
  splits : ∀ config r f, c.create config = .ok r → r.splits = .error f → f.isOrdinary = true
  read : ∀ config r split f, c.create config = .ok r → (r.read split).failure = some f →
    f.isOrdinary = true

theorem ReaderClass.Ordinary.splitsOf {c : ReaderClass} (h : c.Ordinary) {config : Given Config.Flat}
    {f : Failure} (hf : Engine.LocalJob.splitsOf c config = .error f) : f.isOrdinary = true := by
  unfold Engine.LocalJob.splitsOf at hf
  cases hr : c.create config with
  | error f' =>
    rw [hr] at hf
    cases hf
    exact h.create config f hr
  | ok r =>
    rw [hr] at hf
    exact h.splits config r f hr hf

theorem Task.failsWith_inFrame {P : Failure → Prop} {a : Act (Frame σ τ) Unit} (ha : a.FailsWith P)
    (config : Config.Flat) (task : τ) : (Task.inFrame config task a).FailsWith P :=
  fun w f h => ha ⟨w, config, task, Counters.empty⟩ f (map_eq_error_iff.mp h)

namespace TaskClass.Ordinary

variable {c : TaskClass σ τ}

theorem mapFeed (hc : c.Ordinary) {feed : Feed}
    (hfeed : ∀ f, feed.failure = some f → f.isOrdinary = true) :
    (Task.mapFeed c feed).FailsWith (·.isOrdinary = true) := by
  have hrow : ∀ r, (Task.mapRow c r).FailsWith (·.isOrdinary = true) := fun r =>
    ((Act.failsWith_change _).zoom _ _).bind fun _ => hc.map r
  refine (Act.failsWith_forM hrow feed.rows).bind fun _ => ?_
  cases hf : feed.failure with
  | none => exact Act.failsWith_pure ()
  | some f => exact Act.failsWith_throw (hfeed f hf)

/-- **A task of the class fails ordinarily**, whatever the split and the world. -/
theorem run (hc : c.Ordinary) {reader : ReaderClass} (hr : reader.Ordinary) (config : Config.Flat)
    (split : Value) : (Task.run c reader config split).FailsWith (·.isOrdinary = true) := by
  intro w f h
  unfold Task.run at h
  rcases Act.on_bind_cases (Prod.ext h rfl) with ⟨f', hread, hf⟩ | ⟨r, w₁, hread, h⟩
  · cases hf
    exact hr.create _ f (congrArg Prod.fst hread)
  · -- what is read depends on the reader that was made
    have hmade : reader.create (.this config) = .ok r := congrArg Prod.fst hread
    have hlife := hc.setup.bind fun _ =>
      (hc.mapFeed fun f hf => hr.read _ r split f hmade hf).andFinally hc.cleanup
    have hrest := (Act.failsWith_ofExcept hc.create).bind fun t =>
      (Task.failsWith_inFrame hlife config t).bind fun cs =>
        Act.failsWith_pure (cs.add Task.group Task.mapTasks 1)
    exact hrest w₁ f (congrArg Prod.fst h)

end TaskClass.Ordinary

end ScanJobs
