import ScanJobs.Task.Run
import ScanJobs.Proofs.Counters

/-! # What tasks keep and count

What a task keeps row by row it keeps on all rows (`Task.keeps_mapFeed`), and the world is after a task as it
is after its life (`Task.keeps_run`). Tasks that live alike run alike (`Task.agreeOn_run`). A task that
changes its counters by increments only (`TaskClass.Counts`) ends with counters that were counted
(`Counts.counted_of_run`). -/

namespace ScanJobs

variable {σ τ : Type}

/-- What a task keeps row by row it keeps on all rows of its feed. -/
theorem Task.keeps_mapFeed {Q : Frame σ τ → Prop} {c : TaskClass σ τ}
    (h : ∀ r, (Task.mapRow c r).Keeps Q) (feed : Feed) : (Task.mapFeed c feed).Keeps Q := by
  refine .bind (Act.keeps_forM h feed.rows) fun _ => ?_
  cases feed.failure with
  | none => exact Act.keeps_pure ()
  | some f => exact Act.keeps_throw f

/-- Tasks that do the same row by row do the same on all rows of a feed. -/
theorem Task.agreeOn_mapFeed {Q : Frame σ τ → Prop} {c c' : TaskClass σ τ}
    (h : ∀ r, Act.AgreeOn Q (Task.mapRow c r) (Task.mapRow c' r))
    (hkeep : ∀ r, (Task.mapRow c r).Keeps Q) (feed : Feed) :
    Act.AgreeOn Q (Task.mapFeed c feed) (Task.mapFeed c' feed) :=
  (Act.agreeOn_forM h hkeep feed.rows).bind (Act.keeps_forM hkeep feed.rows) fun _ =>
    Act.agreeOn_refl _

section

variable {c c' : TaskClass σ τ} {config : Config.Flat} {w : σ}

/-- **A task leaves the world alone if its life does.** -/
theorem Task.keeps_run (h : ∀ t, c.create = .ok t → ∀ feed,
      ((Task.life c feed).on ⟨w, config, t, Counters.empty⟩).2.world = w)
    (reader : ReaderClass) (split : Value) :
    (Task.run c reader config split).Keeps (· = w) := by
  refine .bind (Act.keeps_ofExcept _) fun r => Act.keeps_ofExcept_bind fun t ht => ?_
  refine .bind ?_ fun cs => Act.keeps_pure _
  rintro w' rfl
  exact h t ht (r.read split)

/-- **Tasks that live alike in this world run alike.** -/
theorem Task.agreeOn_run (hcreate : c'.create = c.create)
    (h : ∀ t, c.create = .ok t → ∀ feed, (Task.life c feed).on ⟨w, config, t, Counters.empty⟩ =
      (Task.life c' feed).on ⟨w, config, t, Counters.empty⟩)
    (reader : ReaderClass) (split : Value) :
    Act.AgreeOn (· = w) (Task.run c reader config split) (Task.run c' reader config split) := by
  unfold Task.run
  rw [hcreate]
  refine (Act.agreeOn_refl _).bind (Act.keeps_ofExcept _) fun r => ?_
  refine Act.agreeOn_ofExcept_bind fun t ht => ?_
  rintro w' rfl
  have hframe : (Task.inFrame config t (Task.life c (r.read split))).on w' =
      (Task.inFrame config t (Task.life c' (r.read split))).on w' := by
    rw [Task.inFrame, Task.inFrame, Act.on_ofFun, Act.on_ofFun, h t ht]
  rw [Act.on_bind, Act.on_bind, hframe]

end

theorem Frame.keeps_counting {α : Type} {Q : Counters → Prop} {a : Act Counters α}
    (h : a.Keeps Q) : (Frame.counting a : Act (Frame σ τ) α).Keeps fun f => Q f.counters :=
  fun f hf => h f.counters hf

namespace TaskClass

/-- **The tasks of a class change their counters by increments only.** -/
structure Counts (c : TaskClass σ τ) : Prop where
  setup : c.setup.Keeps fun f => f.counters.Counted
  map : ∀ r, (c.map r).Keeps fun f => f.counters.Counted
  cleanup : c.cleanup.Keeps fun f => f.counters.Counted

variable {c : TaskClass σ τ}

theorem keeps_ownCounter {name : String} (hname : Text.isBlank name = false) :
    (Act.change fun cs : Counters => cs.add Task.group name 1).Keeps Counters.Counted := by
  intro cs hcs
  have hincrement : (Counters.increment Task.group name (.int 1)).on cs =
      (.ok (), cs.add Task.group name 1) :=
    Counters.increment_eq_ok_iff.mpr ⟨by decide, hname, ⟨1, rfl⟩, rfl⟩
  have hcounted := hcs.increment Task.group name (.int 1)
  rw [hincrement] at hcounted
  exact hcounted

theorem Counts.life (hc : c.Counts) (feed : Feed) :
    (Task.life c feed).Keeps fun f => f.counters.Counted := by
  have hrow : ∀ r, (Task.mapRow c r).Keeps fun f => f.counters.Counted := fun r =>
    .bind (Frame.keeps_counting (keeps_ownCounter (by decide))) fun _ => hc.map r
  exact hc.setup.bind fun _ => (Task.keeps_mapFeed hrow feed).andFinally hc.cleanup

/-- **What a task ends with was counted.** -/
theorem Counts.counted_of_run (hc : c.Counts) {reader : ReaderClass} {config : Config.Flat}
    {split : Value} {w : σ} {d : Counters}
    (h : ((Task.run c reader config split).on w).1 = .ok d) : d.Counted := by
  obtain ⟨w', hrun⟩ : ∃ w', (Task.run c reader config split).on w = (.ok d, w') :=
    ⟨_, Prod.ext h rfl⟩
  rcases Act.on_bind_cases hrun with ⟨f, -, hf⟩ | ⟨made, w₁, -, hrun⟩
  · cases hf
  rcases Act.on_bind_cases hrun with ⟨f, -, hf⟩ | ⟨task, w₂, -, hrun⟩
  · cases hf
  rcases Act.on_bind_cases hrun with ⟨f, -, hf⟩ | ⟨cs, w₃, hframe, hrun⟩
  · cases hf
  have hcounted := hc.life (made.read split) ⟨w₂, config, task, Counters.empty⟩ .none
  obtain ⟨hcs, -⟩ := Prod.mk.inj hframe
  obtain ⟨_, -, rfl⟩ := map_eq_ok_iff.mp hcs
  obtain ⟨hd, -⟩ := Prod.mk.inj hrun
  obtain rfl := Except.ok.inj hd
  exact keeps_ownCounter (by decide) _ hcounted

end TaskClass

end ScanJobs
