import ScanJobs.Proofs.Engine.LocalJob

/-! # Engines that are watched

A watched engine does what the engine does, and its jobs write down the calls that are made for them.
Watching changes neither what comes of an act nor what it leaves behind (`Watches`), so what an
execution asks of an engine can be read off the watched one (`execute_watched`). -/

namespace ScanJobs

namespace Engine

variable {σ τ η α β : Type}

/-- A call of an engine for one of its jobs. -/
inductive PortCall (σ τ : Type) where
  | create (config : Given Config.Flat)
  | assign (setting : Setting σ τ)
  | submit (token : Option Token)
  | counters
  | jobId
  | failureText

/-- A job, and the calls that were made for it. -/
structure Watched (σ τ η : Type) where
  job : η
  calls : List (PortCall σ τ)

/-- The stage with the calls made so far. -/
def Stage.watched (s : Stage σ η) (calls : List (PortCall σ τ)) : Stage σ (Watched σ τ η) :=
  ⟨s.journal, ⟨s.job, calls⟩⟩

/-- An act on the job that is a call of the engine. It is written down whatever comes of it. -/
def called (call : PortCall σ τ) (a : Act (Stage σ η) α) : Act (Stage σ (Watched σ τ η)) α :=
  Act.ofFun fun s =>
    let (r, s') := a.on ⟨s.journal, s.job.job⟩
    (r, s'.watched (s.job.calls ++ [call]))

theorem called_on (call : PortCall σ τ) (a : Act (Stage σ η) α) (s : Stage σ η)
    (calls : List (PortCall σ τ)) : (called call a).on (s.watched calls) =
      ((a.on s).1, (a.on s).2.watched (calls ++ [call])) := rfl

end Engine

open Engine

/-- **The engine, with its calls written down.** -/
def Engine.watched {σ τ η : Type} (e : Engine σ τ η) : Engine σ τ (Watched σ τ η) where
  name := e.name
  create config := do
    let job ← e.create config
    return ⟨job, [.create config]⟩
  assign setting := called (.assign setting) (e.assign setting)
  submit token := called (.submit token) (e.submit token)
  jobId := called .jobId e.jobId
  counters := called .counters e.counters
  failureText := called .failureText e.failureText

namespace Engine

variable {σ τ η α β : Type}

/-- **The first act does what the second does**, and may write down some calls. -/
def Watches (a' : Act (Stage σ (Watched σ τ η)) α) (a : Act (Stage σ η) α) : Prop :=
  ∀ s calls, ∃ more, a'.on (s.watched calls) = ((a.on s).1, (a.on s).2.watched (calls ++ more))

namespace Watches

theorem of_called (call : PortCall σ τ) (a : Act (Stage σ η) α) : Watches (called call a) a :=
  fun s calls => ⟨[call], called_on call a s calls⟩

/-- An act that makes no calls. -/
theorem of_eq {a' : Act (Stage σ (Watched σ τ η)) α} {a : Act (Stage σ η) α}
    (h : ∀ s calls, a'.on (s.watched calls) = ((a.on s).1, (a.on s).2.watched calls)) :
    Watches a' a :=
  fun s calls => ⟨[], by rw [h, List.append_nil]⟩

variable {a' : Act (Stage σ (Watched σ τ η)) α} {a : Act (Stage σ η) α}
  {k' : α → Act (Stage σ (Watched σ τ η)) β} {k : α → Act (Stage σ η) β}

theorem bind (ha : Watches a' a) (hk : ∀ x, Watches (k' x) (k x)) :
    Watches (a' >>= k') (a >>= k) := by
  intro s calls
  obtain ⟨more, hmore⟩ := ha s calls
  cases hs : a.on s with
  | mk result s₁ =>
    rw [hs] at hmore
    cases result with
    | error f =>
      refine ⟨more, ?_⟩
      rw [Act.on_bind_error hmore, Act.on_bind_error hs]
    | ok x =>
      obtain ⟨further, hfurther⟩ := hk x s₁ (calls ++ more)
      refine ⟨more ++ further, ?_⟩
      rw [Act.on_bind_ok hmore, Act.on_bind_ok hs, hfurther, List.append_assoc]

theorem attempt (ha : Watches a' a) : Watches a'.attempt a.attempt := by
  intro s calls
  obtain ⟨more, hmore⟩ := ha s calls
  refine ⟨more, ?_⟩
  rw [Act.on_attempt, hmore]
  rfl

theorem ite {b : Bool} {c' : Act (Stage σ (Watched σ τ η)) α} {c : Act (Stage σ η) α}
    (ha : Watches a' a) (hc : Watches c' c) :
    Watches (if b then a' else c') (if b then a else c) := by
  cases b with
  | true => exact ha
  | false => exact hc

theorem forM {ι : Type} {act' : ι → Act (Stage σ (Watched σ τ η)) Unit}
    {act : ι → Act (Stage σ η) Unit} (h : ∀ x, Watches (act' x) (act x)) (xs : List ι) :
    Watches (xs.forM act') (xs.forM act) := by
  induction xs with
  | nil => exact of_eq fun _ _ => rfl
  | cons x xs ih => exact (h x).bind fun _ => ih

end Watches

end Engine

namespace Job

variable {σ τ η : Type} (e : Engine σ τ η) (d : Descriptor σ τ) (token : Option Token)

theorem watches_note (level : Level) (text : String) :
    Watches (note level text : Act (Stage σ (Watched σ τ η)) Unit) (note level text) :=
  .of_eq fun _ _ => rfl

theorem watches_submitJob : Watches (submitJob e.watched d token) (submitJob e d token) := by
  refine (Watches.of_called _ (e.submit token)).attempt.bind fun told => .of_eq fun _ _ => ?_
  cases told <;> rfl

theorem watches_whenSucceeded : Watches (whenSucceeded e.watched d) (whenSucceeded e d) := by
  refine (Watches.of_called _ e.counters).bind fun v => ?_
  refine .bind (.of_eq fun _ _ => rfl) fun m => ?_
  exact .bind (watches_note _ _) fun _ => .of_eq fun _ _ => rfl

theorem watches_readFailure : Watches (readFailure e.watched) (readFailure e) := by
  refine (Watches.of_called _ e.jobId).bind fun id => ?_
  exact (Watches.of_called _ e.failureText).bind fun text => .of_eq fun _ _ => rfl

theorem watches_noteUnreadable (told : Except Failure (Value × Value)) :
    Watches (noteUnreadable d told : Act (Stage σ (Watched σ τ η)) Unit) (noteUnreadable d told) := by
  cases told with
  | ok p => exact .of_eq fun _ _ => rfl
  | error f => exact .ite (watches_note _ _) (.of_eq fun _ _ => rfl)

theorem watches_whenFailed : Watches (whenFailed e.watched d) (whenFailed e d) := by
  refine (watches_readFailure e).attempt.bind fun told => ?_
  refine (watches_noteUnreadable d told).bind fun _ => ?_
  exact .bind (watches_note _ _) fun _ => .of_eq fun _ _ => rfl

theorem watches_carryOut : Watches (carryOut e.watched d token) (carryOut e d token) := by
  refine (Watches.forM (fun s => .of_called (.assign s) (e.assign s)) _).bind fun _ => ?_
  refine .bind (watches_note _ _) fun _ => ?_
  refine (watches_submitJob e d token).bind fun b => ?_
  exact .ite (watches_whenSucceeded e d) (watches_whenFailed e d)

/-- **An execution does the same on the watched engine.** -/
theorem execute_watched (config : Given Config.Flat) :
    execute (some e.watched) (some d) config token = execute (some e) (some d) config token := by
  funext j
  change (e.watched.create config >>= fun job => withJob job (carryOut e.watched d token)).on j =
    (e.create config >>= fun job => withJob job (carryOut e d token)).on j
  cases hcreate : (e.create config).on j with
  | mk result j₁ =>
    cases result with
    | error f =>
      have hwatched : (e.watched.create config).on j = (.error f, j₁) := Act.on_bind_error hcreate
      rw [Act.on_bind_error hwatched, Act.on_bind_error hcreate]
    | ok job =>
      have hwatched : (e.watched.create config).on j = (.ok ⟨job, [.create config]⟩, j₁) :=
        Act.on_bind_ok hcreate
      rw [Act.on_bind_ok hwatched, Act.on_bind_ok hcreate]
      obtain ⟨more, hmore⟩ := watches_carryOut e d token ⟨j₁, job⟩ [.create config]
      change ((carryOut e.watched d token).on (Stage.watched ⟨j₁, job⟩ [.create config]) |>.1,
        ((carryOut e.watched d token).on (Stage.watched ⟨j₁, job⟩ [.create config])).2.journal) = _
      rw [hmore]
      rfl

/-- **The calls that an execution makes**, in turn: those that its job has written down when it is
dropped. -/
def callsOf (config : Given Config.Flat) (j : Journal σ) : List (PortCall σ τ) :=
  match (e.watched.create config).on j with
  | (.error _, _) => [.create config]
  | (.ok job, j₁) => ((carryOut e.watched d token).on ⟨j₁, job⟩).2.job.calls

end Job

end ScanJobs
