import ScanJobs.Proofs.Job.Submission
import ScanJobs.Proofs.Registry.Calls
import ScanJobs.Proofs.Task.Finding
import ScanJobs.Engine.Local

/-! # Workers run the class that was submitted

A registered job is submitted under the name by which it was checked, which its workers read in the
configuration, whatever this held before (`Registered.named`). Where a worker has the registry that the
submitter had, the name is bound, and to no other class. So its tasks run new jobs of the class, and import
nothing (`workers_run_submitted_class`). -/

namespace ScanJobs

open Registry

/-- Importing a module changes a registry by calls only. -/
theorem Library.exists_calls_of_import (k : Nat) (name : String) (l : Library) :
    ∃ calls, ((importModule name).on l).2.registry k = after calls (l.registry k) := by
  refine keeps_importModule (P := fun r => ∃ calls, r = after calls (l.registry k)) ?_ k name l ⟨[], rfl⟩
  rintro _ f n ⟨calls, rfl⟩
  refine ⟨calls ++ [.register f n], ?_⟩
  rw [after_snoc, next_register]

namespace Job

open Engine Text Config

variable {σ τ η : Type} {h : Host σ} {task : TaskClass σ τ} {cls : JobClass}
  {app : Given Application} {s : Desk σ} {c : Given Flat} {j : Journal σ}

/-- **What is submitted for a registered job names it.** The name is the one that was checked; it is bound,
and if it is that of a class, this is the class of the job. -/
theorem Registered.named {flat : Flat} (hr : Registered h task (some cls) app s (.this flat) j)
    (hstripped : (h.registry s.journal.world).Stripped)
    (himports : ∀ m, (h.importModule m).Keeps fun w => (h.registry w).Stripped) :
    ∃ name f j₀, (h.preflight (some cls)).on s.journal = (.ok name, j₀) ∧ j.world = j₀.world ∧
      ScanTask.jobName flat.copy = .ok name ∧ (h.registry j.world).get? name = some f ∧
        ∀ d, f = .jobClass d → d = cls := by
  obtain ⟨_, root, name, j₀, view, c₀, ⟨⟩, -, hname, -, hc, hlog⟩ := hr
  obtain ⟨f, hresolve, hclass⟩ := Host.preflight_ok hname
  have hworld : j.world = j₀.world := by
    cases hlog
    rfl
  have hfound : (h.registry j.world).get? name = some f := by
    rw [hworld]
    exact Host.resolve_ok hresolve
  have hsolid : Solid name := by
    have hkept := Host.keeps_resolve himports name none _ hstripped
    rw [hresolve, ← hworld] at hkept
    exact hkept name f hfound
  -- the key of the name is not that of the module, which is written after it
  have hstored : flat.copy.get? Keys.standard.jobClass = some name := by
    have hne : strip Keys.standard.jobModule ≠ Keys.standard.jobClass := by decide
    have hkey : strip Keys.standard.jobClass = Keys.standard.jobClass := by decide
    obtain rfl : flat = (c₀.put Keys.standard.jobClass name).put Keys.standard.jobModule cls.module := by
      cases hc
      rfl
    rw [Flat.get?, Flat.stored?_copy, Flat.stored?_put, if_neg hne, Flat.stored?_put, if_pos hkey]
    rfl
  refine ⟨name, f, j₀, hname, hworld, ?_, hfound, hclass⟩
  rw [ScanTask.jobName, hstored]
  dsimp only
  rw [hsolid.isBlank_eq, hsolid.strip_eq]
  rfl

/-- **What is submitted leads workers to the class of the job.** The name under which the job was checked is
bound, and to no other class. In every world with the same names tasks that are given the configuration run
new jobs of what it is bound to. -/
def FindsClass (h : Host σ) (p : Presentation) (cls : JobClass) (s : Desk σ) (c : Given Flat)
    (j : Journal σ) : Prop :=
  ∃ flat name f j₀, c = .this flat ∧ (h.preflight (some cls)).on s.journal = (.ok name, j₀) ∧
    j.world = j₀.world ∧ (h.registry j.world).get? name = some f ∧ (∀ d, f = .jobClass d → d = cls) ∧
      ∀ w, h.registry w = h.registry j.world → ScanTask.RunsJob h p flat.copy w name f

theorem findsClass_of_registered {p : Presentation}
    (hr : Registered h task (some cls) app s c j)
    (hstripped : (h.registry s.journal.world).Stripped)
    (himports : ∀ m, (h.importModule m).Keeps fun w => (h.registry w).Stripped) :
    FindsClass h p cls s c j := by
  have hregistered := hr
  obtain ⟨_, root, name, j₀, view, c₀, -, -, -, -, rfl, -⟩ := hregistered
  obtain ⟨name, f, j₀, hname, hworld, hjobName, hfound, hclass⟩ := hr.named hstripped himports
  refine ⟨_, name, f, j₀, rfl, hname, hworld, hfound, hclass, fun w hw => ?_⟩
  exact ScanTask.runsJob_of_bound hjobName (hw ▸ hfound)

/-- **Workers run the class that was submitted.** A run over rows or vertices fails before it asks for a
job, or what it submits leads all workers to the class of the job, if they have the submitter's registry.
This holds whatever calls were made on the registry before, whatever the application and the configuration
hold, and whatever modules register when they are imported. -/
theorem workers_run_submitted_class (h : Host σ) (e : Engine σ ScanTask.State η) (cls : JobClass)
    (app : Given Application) (reader : ClassArg ReaderClass) (token : Option Token) (s : Desk σ)
    (hcalls : ∃ calls, h.registry s.journal.world = after calls empty)
    (himports : ∀ m w, ∃ calls, h.registry ((h.importModule m).on w).2 = after calls (h.registry w)) :
    SubmitsOnce (fun make => runScan h (e.making make) (some cls) app reader token)
      (FindsClass h .row cls s) s ∧
    SubmitsOnce (fun make => runVertexScan h (e.making make) (some cls) app reader token)
      (FindsClass h .vertex cls s) s := by
  have hstripped : (h.registry s.journal.world).Stripped := by
    obtain ⟨calls, hcalls⟩ := hcalls
    rw [hcalls]
    exact stripped_after calls
  have hkept : ∀ m, (h.importModule m).Keeps fun w => (h.registry w).Stripped := by
    intro m w hw
    obtain ⟨calls, hcalls⟩ := himports m w
    rw [hcalls]
    exact after_of_next (fun _ hr call => hr.next call) hw calls
  constructor
  · exact (runRegistered_submits_once h e (ScanTask.tasks h .row) (some cls) app reader token s).imp
      fun _ _ hr => findsClass_of_registered hr hstripped hkept
  · exact (runRegistered_submits_once h e (ScanTask.tasks h .vertex) (some cls) app reader token s).imp
      fun _ _ hr => findsClass_of_registered hr hstripped hkept

/-- A class that is registered under a name of its choice, and another one. -/
def nightlyClass : JobClass := ⟨1, "jobs.nightly", "Scan"⟩

def otherClass : JobClass := ⟨2, "jobs", "Other"⟩

def nightlyCalls : List Call :=
  [.register (some (.jobClass otherClass)) none, .register (some (.jobClass nightlyClass)) (some " nightly ")]

/-- The library in which they are registered. Its jobs look at no row. -/
def nightlyHost : Host Library :=
  Library.host (fun _ => ⟨"Nightly", .nothing, .ok (), fun _ => pure (), fun _ _ => pure (), pure (), none⟩) 0

def nightlyLibrary : Library := { Library.empty with registries := [after nightlyCalls empty] }

/-- The configuration of the engine still has the entries of the other class. -/
def nightlyDesk : Desk Library :=
  ⟨.this (Flat.empty.putAll (entriesFor otherClass "jobs.Other")), .start nightlyLibrary⟩

/-- The job is submitted, and its workers find its class and not the other one. -/
theorem nightly_workers_find_class :
    let engine : Engine Library ScanTask.State (LocalJob Library ScanTask.State) :=
      (⟨.process, .int 2, .int 1, none⟩ : Local).toEngine (pure "job_local_000000000000")
    let reader : ReaderClass :=
      ⟨"EmptyReader", fun _ => .ok ⟨.ok [], fun _ => ⟨[], none⟩⟩, fun _ => .ok ()⟩
    let run := fun make => runScan nightlyHost (engine.making make) (some nightlyClass) .nothing
      (.cls reader) none
    ∃ flat j, (∀ f, ((run fun _ => throw f).on nightlyDesk).1 = .error f) ∧
      FindsClass nightlyHost .row nightlyClass nightlyDesk (.this flat) j ∧
      ScanTask.jobName flat.copy = .ok "nightly" := by
  intro engine reader run
  have hcalls : ∃ calls, nightlyHost.registry nightlyDesk.journal.world = after calls empty :=
    ⟨nightlyCalls, rfl⟩
  have himports : ∀ m w, ∃ calls, nightlyHost.registry ((nightlyHost.importModule m).on w).2 =
      after calls (nightlyHost.registry w) := fun m w => Library.exists_calls_of_import 0 m w
  have hasked : ∀ f, ((run fun _ => throw f).on nightlyDesk).1 = .error f := fun f => rfl
  have hname : ((nightlyHost.preflight (some nightlyClass)).on nightlyDesk.journal).1 =
      .ok "nightly" := rfl
  cases (workers_run_submitted_class nightlyHost engine nightlyClass .nothing (.cls reader) none
    nightlyDesk hcalls himports).1 with
  | refused f j hrefused =>
    -- a run that is refused has one failure, whatever failure there is when a job is asked for
    have hone : ∀ f', f = f' := fun f' =>
      Except.error.inj ((congrArg Prod.fst (hrefused fun _ => throw f')).symm.trans (hasked f'))
    cases (hone (.missing "engine")).symm.trans (hone (.blank "name"))
  | submitted c j ready answer failed hrun =>
    have hfinds := ready
    obtain ⟨flat, name, f, j₀, rfl, hpreflight, -, -, -, hworkers⟩ := ready
    rw [hpreflight] at hname
    obtain rfl := Except.ok.inj hname
    exact ⟨flat, j, hasked, hfinds, (hworkers j.world rfl).named⟩

end Job

end ScanJobs
