import ScanJobs.Failure.Basic

/-! # Acts

An act changes a state and ends with a value or a failure. What it did to the state before it failed
stays done, as for one who catches the failure and goes on. `on` is what an act means: each way to
make an act has one equation for it.
-/

namespace ScanJobs

/-- A computation on a state that may fail. -/
abbrev Act (σ α : Type) : Type :=
  ExceptT Failure (StateM σ) α

namespace Act

variable {σ ρ α β : Type}

/-- The outcome of an act and the state after it. -/
def on (a : Act σ α) (s : σ) : Except Failure α × σ :=
  a s

/-- The act that does this to the state. -/
def ofFun (f : σ → Except Failure α × σ) : Act σ α :=
  f

/-- Ends with this outcome and leaves the state alone. -/
def ofExcept (e : Except Failure α) : Act σ α :=
  ofFun fun s => (e, s)

/-- Ends with a value read off the state. -/
def read (f : σ → α) : Act σ α :=
  ofFun fun s => (.ok (f s), s)

/-- Changes the state. -/
def change (f : σ → σ) : Act σ Unit :=
  ofFun fun s => (.ok (), f s)

/-- Changes the state if the new one can be had. -/
def tryChange (f : σ → Except Failure σ) : Act σ Unit :=
  ofFun fun s =>
    match f s with
    | .ok s' => (.ok (), s')
    | .error e => (.error e, s)

/-- An act on a part of the state. -/
def zoom (get : σ → ρ) (set : ρ → σ → σ) (a : Act ρ α) : Act σ α :=
  ofFun fun s => let (r, p) := a.on (get s); (r, set p s)

/-- The act, and then the last one whatever came of it. A failure of the last one comes first. -/
def andFinally (a : Act σ α) (last : Act σ Unit) : Act σ α :=
  ofFun fun s =>
    let (r, s) := a.on s
    match last.on s with
    | (.ok (), s) => (r, s)
    | (.error e, s) => (.error e, s)

/-- The outcome of an act, as a value. -/
def attempt (a : Act σ α) : Act σ (Except Failure α) :=
  ofFun fun s => let (r, s) := a.on s; (.ok r, s)

/-! ## What acts do to a state -/

@[simp] theorem on_pure (x : α) (s : σ) : (pure x : Act σ α).on s = (.ok x, s) := rfl

@[simp] theorem on_throw (f : Failure) (s : σ) : (throw f : Act σ α).on s = (.error f, s) := rfl

@[simp] theorem on_ofFun (f : σ → Except Failure α × σ) (s : σ) : (ofFun f).on s = f s := rfl

@[simp] theorem on_ofExcept (e : Except Failure α) (s : σ) : (ofExcept e).on s = (e, s) := rfl

@[simp] theorem on_read (f : σ → α) (s : σ) : (read f).on s = (.ok (f s), s) := rfl

@[simp] theorem on_change (f : σ → σ) (s : σ) : (change f).on s = (.ok (), f s) := rfl

/-- A failed act ends all that was to follow. -/
theorem on_bind (a : Act σ α) (k : α → Act σ β) (s : σ) :
    (a >>= k).on s =
      match a.on s with
      | (.ok x, s) => (k x).on s
      | (.error f, s) => (.error f, s) := by
  change ExceptT.bindCont k (a s).1 (a s).2 = _
  unfold on
  split
  · next h => rw [h]; rfl
  · next h => rw [h]; rfl

theorem on_bind_ok {a : Act σ α} {k : α → Act σ β} {s s' : σ} {x : α}
    (h : a.on s = (.ok x, s')) : (a >>= k).on s = (k x).on s' := by
  rw [on_bind, h]

theorem on_bind_error {a : Act σ α} {k : α → Act σ β} {s s' : σ} {f : Failure}
    (h : a.on s = (.error f, s')) : (a >>= k).on s = (.error f, s') := by
  rw [on_bind, h]

theorem on_tryChange (f : σ → Except Failure σ) (s : σ) :
    (tryChange f).on s =
      match f s with
      | .ok s' => (.ok (), s')
      | .error e => (.error e, s) := rfl

theorem on_zoom (get : σ → ρ) (set : ρ → σ → σ) (a : Act ρ α) (s : σ) :
    (zoom get set a).on s = ((a.on (get s)).1, set (a.on (get s)).2 s) := rfl

theorem on_andFinally (a : Act σ α) (last : Act σ Unit) (s : σ) :
    (a.andFinally last).on s =
      match last.on (a.on s).2 with
      | (.ok (), s') => ((a.on s).1, s')
      | (.error e, s') => (.error e, s') := rfl

theorem on_attempt (a : Act σ α) (s : σ) : a.attempt.on s = (.ok (a.on s).1, (a.on s).2) := rfl

end Act

end ScanJobs
