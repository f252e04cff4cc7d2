import ScanJobs.Proofs.Task.Failing
import ScanJobs.Proofs.Task.Run

/-! # The life of a task, call by call

A watched task does what the task does and writes down its calls, each with what came of it and with the
counters before and after (`TaskClass.watched`). Acts are put together from parts that were watched
(`Shows`), so what is written down about a whole life follows from its calls (`shows_life`): the setup,
the rows up to the first on which the task fails, and the cleanup once the setup returned, whatever
failed in between (`Lived`). -/

namespace ScanJobs

namespace Task

/-- A call of a task. -/
inductive TaskCall where
  | setup
  | map (row : Row)
  | cleanup

/-- What is told of a call: which it was, and what came of it. -/
abbrev Told := TaskCall × Except Failure Unit

/-- A call that was made, and the counters before and after it. -/
structure Called where
  told : Told
  before : Counters
  after : Counters

/-- What the call added to a counter. -/
def Called.added (e : Called) (group name : String) : Int :=
  e.after.value group name - e.before.value group name

/-- A world, and the calls that were made in it. -/
structure Watched (σ : Type) where
  world : σ
  calls : List Called

end Task

open ScanJobs.Task

variable {σ τ : Type}

/-- The frame with the calls made so far. -/
def Frame.watched (f : Frame σ τ) (calls : List Called) : Frame (Watched σ) τ :=
  ⟨⟨f.world, calls⟩, f.config, f.task, f.counters⟩

/-- The frame without the calls. -/
def Frame.unwatched (f : Frame (Watched σ) τ) : Frame σ τ :=
  ⟨f.world.world, f.config, f.task, f.counters⟩

namespace Task

/-- An act that is a call of the task. It is written down whatever comes of it. -/
def called (call : TaskCall) (a : Act (Frame σ τ) Unit) : Act (Frame (Watched σ) τ) Unit :=
  Act.ofFun fun f =>
    let (r, f') := a.on f.unwatched
    (r, f'.watched (f.world.calls ++ [⟨(call, r), f.counters, f'.counters⟩]))

end Task

/-- **The class, with the calls of its tasks written down.** -/
def TaskClass.watched (c : TaskClass σ τ) : TaskClass (Watched σ) τ where
  name := c.name
  create := c.create
  setup := called .setup c.setup
  map r := called (.map r) (c.map r)
  cleanup := called .cleanup c.cleanup
  handing := c.handing

namespace Task

/-! ### The calls of a life -/

/-- **The rows are mapped in turn** up to the first on which that fails, with its failure if there is
one. -/
inductive MapsRows : List Row → List Told → Option Failure → Prop where
  | all (rows : List Row) : MapsRows rows (rows.map fun r => (.map r, .ok ())) none
  | upTo (before : List Row) (r : Row) (after : List Row) (f : Failure) :
      MapsRows (before ++ r :: after)
        ((before.map fun r => (.map r, .ok ())) ++ [(.map r, .error f)]) (some f)

theorem MapsRows.cons {rows : List Row} {told : List Told} {first : Option Failure}
    (h : MapsRows rows told first) (r : Row) :
    MapsRows (r :: rows) ((.map r, .ok ()) :: told) first := by
  cases h with
  | all => exact .all (r :: rows)
  | upTo before r' after f => exact .upTo (r :: before) r' after f

/-- **The calls of a life**, and the failure that it ends with if there is one: the cleanup's, or the first
in the rows or in reading them. -/
inductive Lived (feed : Feed) : List Told → Option Failure → Prop where
  | unset (f : Failure) : Lived feed [(.setup, .error f)] (some f)
  | cleaned {told : List Told} {first : Option Failure} (h : MapsRows feed.rows told first) :
      Lived feed ((.setup, .ok ()) :: (told ++ [(.cleanup, .ok ())])) (first.or feed.failure)
  | uncleaned {told : List Told} {first : Option Failure} (h : MapsRows feed.rows told first)
      (f : Failure) : Lived feed ((.setup, .ok ()) :: (told ++ [(.cleanup, .error f)])) (some f)

/-! ### Acts that are watched -/

/-- What was counted: by the calls, and besides. -/
def Books (before after : Counters) (calls : List Called) (besides : String → String → Int) : Prop :=
  ∀ g n, after.value g n = before.value g n + (calls.map fun e => e.added g n).sum + besides g n

/-- **The first act does what the second does** from a frame on, writes down these calls and ends with this
failure; if there is none, the counters are in order. -/
structure Shows (a' : Act (Frame (Watched σ) τ) Unit) (a : Act (Frame σ τ) Unit) (f : Frame σ τ)
    (calls : List Called) (first : Option Failure) (besides : String → String → Int) : Prop where
  on_eq : ∀ earlier, a'.on (f.watched earlier) = ((a.on f).1, (a.on f).2.watched (earlier ++ calls))
  outcome : (a.on f).1 = first.elim (.ok ()) .error
  books : first = none → Books f.counters (a.on f).2.counters calls besides

/-- The failure that an act ended with. -/
def failure? : Except Failure Unit → Option Failure
  | .ok () => none
  | .error f => some f

theorem outcome_failure? (r : Except Failure Unit) : r = (failure? r).elim (.ok ()) .error := by
  cases r <;> rfl

theorem shows_called (call : TaskCall) (a : Act (Frame σ τ) Unit) (f : Frame σ τ) :
    Shows (called call a) a f [⟨(call, (a.on f).1), f.counters, (a.on f).2.counters⟩]
      (failure? (a.on f).1) fun _ _ => 0 where
  on_eq _ := rfl
  outcome := outcome_failure? _
  books _ g n := by simp [Called.added]

/-- An act of the engine, in which nothing is called. -/
theorem shows_pure (f : Frame σ τ) : Shows (pure ()) (pure ()) f [] none fun _ _ => 0 where
  on_eq earlier := by simp
  outcome := rfl
  books _ g n := by simp

theorem shows_throw (failure : Failure) (f : Frame σ τ) :
    Shows (throw failure) (throw failure) f [] (some failure) fun _ _ => 0 where
  on_eq earlier := by simp
  outcome := rfl
  books h := nomatch h

namespace Shows

variable {a' k' : Act (Frame (Watched σ) τ) Unit} {a k : Act (Frame σ τ) Unit} {f : Frame σ τ}
  {calls calls' : List Called} {first first' : Option Failure} {besides besides' : String → String → Int}

/-- After an act that succeeds the next one goes on. -/
theorem bind (ha : Shows a' a f calls none besides) (hk : Shows k' k (a.on f).2 calls' first' besides') :
    Shows (a' >>= fun _ => k') (a >>= fun _ => k) f (calls ++ calls') first'
      fun g n => besides g n + besides' g n := by
  have hon : (a >>= fun _ => k).on f = k.on (a.on f).2 := Act.on_bind_fst_ok ha.outcome _
  refine ⟨fun earlier => ?_, by rw [hon]; exact hk.outcome, fun h g n => ?_⟩
  · have hfirst : a'.on (f.watched earlier) = (.ok (), (a.on f).2.watched (earlier ++ calls)) := by
      rw [ha.on_eq, ha.outcome]
      rfl
    rw [Act.on_bind_ok hfirst, hk.on_eq, hon, List.append_assoc]
  · have hbooks := ha.books rfl g n
    have hbooks' := hk.books h g n
    rw [hon, hbooks', hbooks, List.map_append, List.sum_append]
    omega

/-- After one that fails nothing follows. -/
theorem bind_error {e : Failure} (ha : Shows a' a f calls (some e) besides)
    (k' : Unit → Act (Frame (Watched σ) τ) Unit) (k : Unit → Act (Frame σ τ) Unit) :
    Shows (a' >>= k') (a >>= k) f calls (some e) besides' := by
  have hon : (a >>= k).on f = (.error e, (a.on f).2) := Act.on_bind_fst_error ha.outcome k
  refine ⟨fun earlier => ?_, by rw [hon]; rfl, nofun⟩
  have hfirst : a'.on (f.watched earlier) = (.error e, (a.on f).2.watched (earlier ++ calls)) := by
    rw [ha.on_eq, ha.outcome]
    rfl
  rw [Act.on_bind_error hfirst, hon]

/-- The last act is called in any case, and its failure comes first. -/
theorem andFinally (ha : Shows a' a f calls first besides)
    (hk : Shows k' k (a.on f).2 calls' first' besides') :
    Shows (a'.andFinally k') (a.andFinally k) f (calls ++ calls') (first'.or first)
      fun g n => besides g n + besides' g n := by
  have hlast : ∀ earlier, k'.on ((a'.on (f.watched earlier)).2) =
      (first'.elim (.ok ()) .error, (k.on (a.on f).2).2.watched (earlier ++ (calls ++ calls'))) := by
    intro earlier
    rw [ha.on_eq, hk.on_eq, hk.outcome, List.append_assoc]
  have hk' : k.on (a.on f).2 = (first'.elim (.ok ()) .error, (k.on (a.on f).2).2) :=
    Prod.ext hk.outcome rfl
  cases first' with
  | none =>
    have hon : (a.andFinally k).on f = ((a.on f).1, (k.on (a.on f).2).2) := by
      rw [Act.on_andFinally, hk']
      rfl
    refine ⟨fun earlier => ?_, by rw [hon]; exact ha.outcome, fun h g n => ?_⟩
    · rw [Act.on_andFinally, hlast, hon, ha.on_eq]
      rfl
    · have hbooks := ha.books h g n
      have hbooks' := hk.books rfl g n
      rw [hon, hbooks', hbooks, List.map_append, List.sum_append]
      omega
  | some e =>
    have hon : (a.andFinally k).on f = (.error e, (k.on (a.on f).2).2) := by
      rw [Act.on_andFinally, hk']
      rfl
    refine ⟨fun earlier => ?_, by rw [hon]; rfl, nofun⟩
    rw [Act.on_andFinally, hlast, hon]
    rfl

end Shows

/-! ### The parts of a life -/

/-- So many rows in the counter of rows. -/
def recordsOf (k : Nat) (g n : String) : Int :=
  if group = g ∧ inputRecords = n then k else 0

theorem recordsOf_succ (k : Nat) (g n : String) : recordsOf (k + 1) g n = recordsOf 1 g n + recordsOf k g n := by
  unfold recordsOf
  split
  · omega
  · rfl

/-- The engine counts a row before it is mapped. -/
theorem shows_countRow (f : Frame σ τ) :
    Shows (Frame.counting (Act.change fun cs => cs.add group inputRecords 1))
      (Frame.counting (Act.change fun cs => cs.add group inputRecords 1)) f [] none (recordsOf 1) where
  on_eq earlier := by
    rw [List.append_nil]
    rfl
  outcome := rfl
  books _ g n := by
    change (f.counters.add group inputRecords 1).value g n = _
    rw [Counters.value_add]
    simp [recordsOf]

variable (c : TaskClass σ τ)

/-- **One row**: it is counted, and mapped. -/
theorem shows_mapRow (r : Row) (f : Frame σ τ) :
    ∃ call first, call.told = (.map r, Option.elim first (.ok ()) .error) ∧
      Shows (mapRow c.watched r) (mapRow c r) f [call] first (recordsOf 1) := by
  have h := (shows_countRow f).bind (shows_called (.map r) (c.map r) _)
  simp only [Int.add_zero] at h
  exact ⟨_, _, by rw [← outcome_failure?], h⟩

/-- **All rows**, by induction on them. -/
theorem shows_rows (rows : List Row) (f : Frame σ τ) :
    ∃ calls first, MapsRows rows (calls.map Called.told) first ∧
      Shows (rows.forM (mapRow c.watched)) (rows.forM (mapRow c)) f calls first (recordsOf rows.length) := by
  induction rows generalizing f with
  | nil =>
    have hzero : recordsOf ([] : List Row).length = fun _ _ => 0 := by
      funext g n
      simp [recordsOf]
    exact ⟨[], none, .all [], hzero ▸ shows_pure f⟩
  | cons r rows ih =>
    obtain ⟨call, first, htold, hrow⟩ := shows_mapRow c r f
    cases first with
    | some e =>
      refine ⟨[call], some e, ?_, hrow.bind_error _ _⟩
      rw [List.map_singleton, htold]
      exact .upTo [] r rows e
    | none =>
      obtain ⟨calls, first, hmaps, hrows⟩ := ih ((mapRow c r).on f).2
      have hlength : recordsOf (r :: rows).length = fun g n => recordsOf 1 g n + recordsOf rows.length g n := by
        funext g n
        exact recordsOf_succ rows.length g n
      refine ⟨call :: calls, first, ?_, hlength ▸ hrow.bind hrows⟩
      rw [List.map_cons, htold]
      exact hmaps.cons r

/-- **The rows of a feed**, and the failure of reading after them. -/
theorem shows_feed (feed : Feed) (f : Frame σ τ) :
    ∃ calls first, MapsRows feed.rows (calls.map Called.told) first ∧
      Shows (mapFeed c.watched feed) (mapFeed c feed) f calls (first.or feed.failure)
        (recordsOf feed.rows.length) := by
  obtain ⟨calls, first, hmaps, hrows⟩ := shows_rows c feed.rows f
  refine ⟨calls, first, hmaps, ?_⟩
  cases first with
  | some e => exact hrows.bind_error _ _
  | none =>
    unfold mapFeed
    cases feed.failure with
    | none =>
      have h := hrows.bind (shows_pure _)
      simp only [List.append_nil, Int.add_zero] at h
      exact h
    | some e =>
      have h := hrows.bind (shows_throw e _)
      simp only [List.append_nil, Int.add_zero] at h
      exact h

/-- **A whole life.** -/
theorem shows_life (feed : Feed) (f : Frame σ τ) :
    ∃ calls failure, Lived feed (calls.map Called.told) failure ∧
      Shows (life c.watched feed) (life c feed) f calls failure (recordsOf feed.rows.length) := by
  have hsetup := shows_called .setup c.setup f
  have htold := outcome_failure? (c.setup.on f).1
  cases hfirst : failure? (c.setup.on f).1 with
  | some e =>
    rw [hfirst] at hsetup htold
    refine ⟨_, some e, ?_, hsetup.bind_error _ _⟩
    rw [List.map_singleton, htold]
    exact .unset e
  | none =>
    rw [hfirst] at hsetup htold
    obtain ⟨calls, first, hmaps, hrows⟩ := shows_feed c feed (c.setup.on f).2
    have hcleanup := shows_called .cleanup c.cleanup ((mapFeed c feed).on (c.setup.on f).2).2
    have htold' := outcome_failure? (c.cleanup.on ((mapFeed c feed).on (c.setup.on f).2).2).1
    have h := hsetup.bind (hrows.andFinally hcleanup)
    simp only [Int.add_zero, Int.zero_add] at h
    refine ⟨_, _, ?_, h⟩
    rw [List.map_append, List.map_append, List.map_singleton, List.map_singleton, htold, htold']
    cases failure? (c.cleanup.on ((mapFeed c feed).on (c.setup.on f).2).2).1 with
    | some e => exact .uncleaned hmaps e
    | none => exact .cleaned hmaps

/-! ### Running a task -/

variable {c} {reader : ReaderClass} {config : Config.Flat} {split : Value}

/-- A task that was made lives on what its reader reads. -/
theorem on_run {r : Reader} {t : τ} (hreader : reader.create (.this config) = .ok r)
    (htask : c.create = .ok t) (w : σ) : (run c reader config split).on w =
      (((life c (r.read split)).on ⟨w, config, t, Counters.empty⟩).1.map fun _ =>
          ((life c (r.read split)).on ⟨w, config, t, Counters.empty⟩).2.counters.add group mapTasks 1,
        ((life c (r.read split)).on ⟨w, config, t, Counters.empty⟩).2.world) := by
  rw [run, Act.on_ofExcept_bind_ok hreader, Act.on_ofExcept_bind_ok htask, Act.on_bind, inFrame,
    Act.on_ofFun]
  cases (life c (r.read split)).on ⟨w, config, t, Counters.empty⟩ with
  | mk result f => cases result <;> rfl

/-- **The calls of a task**, as the watched one has written them down at its end. -/
def callsOf (c : TaskClass σ τ) (reader : ReaderClass) (config : Config.Flat) (split : Value) (w : σ) :
    List Called :=
  ((run c.watched reader config split).on ⟨w, []⟩).2.calls

/-- The failure to make the reader or, once this was made, the task. -/
def NotMade (c : TaskClass σ τ) (reader : ReaderClass) (config : Config.Flat) (f : Failure) : Prop :=
  reader.create (.this config) = .error f ∨
    (∃ r, reader.create (.this config) = .ok r) ∧ c.create = .error f

theorem NotMade.absurd {f : Failure} (h : NotMade c reader config f) {r : Reader} {t : τ}
    (hreader : reader.create (.this config) = .ok r) (htask : c.create = .ok t) : False := by
  rcases h with h | ⟨-, h⟩
  · cases h.symm.trans hreader
  · cases h.symm.trans htask

theorem NotMade.unique {f f' : Failure} (h : NotMade c reader config f)
    (h' : NotMade c reader config f') : f = f' := by
  rcases h with h | ⟨⟨r, hr⟩, h⟩ <;> rcases h' with h' | ⟨⟨r', hr'⟩, h'⟩
  · exact Except.error.inj (h.symm.trans h')
  · cases h.symm.trans hr'
  · cases hr.symm.trans h'
  · exact Except.error.inj (h.symm.trans h')

theorem not_made_or_made (c : TaskClass σ τ) (reader : ReaderClass) (config : Config.Flat) :
    (∃ f, NotMade c reader config f) ∨
      ∃ r t, reader.create (.this config) = .ok r ∧ c.create = .ok t := by
  cases hreader : reader.create (.this config) with
  | error f => exact .inl ⟨f, .inl hreader⟩
  | ok r =>
    cases htask : c.create with
    | error f => exact .inl ⟨f, .inr ⟨⟨r, hreader⟩, htask⟩⟩
    | ok t => exact .inr ⟨r, t, rfl, rfl⟩

theorem on_run_of_not_made {f : Failure} (h : NotMade c reader config f) (w : σ) :
    (run c reader config split).on w = (.error f, w) := by
  rcases h with hreader | ⟨⟨r, hreader⟩, htask⟩
  · rw [run, Act.on_ofExcept_bind_error hreader]
  · rw [run, Act.on_ofExcept_bind_ok hreader, Act.on_ofExcept_bind_error htask]

variable (split) in
theorem run_watched_of_made {r : Reader} {t : τ} (hreader : reader.create (.this config) = .ok r)
    (htask : c.create = .ok t) (w : σ) : ∃ failure,
      Lived (r.read split) ((callsOf c reader config split w).map Called.told) failure ∧
      (run c.watched reader config split).on ⟨w, []⟩ =
        (((run c reader config split).on w).1,
          ⟨((run c reader config split).on w).2, callsOf c reader config split w⟩) ∧
      (∀ f, failure = some f → ((run c reader config split).on w).1 = .error f) ∧
      (failure = none → ∃ counters, ((run c reader config split).on w).1 = .ok counters ∧
        ∀ g n, counters.value g n = ((callsOf c reader config split w).map fun e => e.added g n).sum +
          recordsOf (r.read split).rows.length g n + if group = g ∧ mapTasks = n then 1 else 0) := by
  obtain ⟨calls, failure, hlived, hshows⟩ :=
    shows_life c (r.read split) ⟨w, config, t, Counters.empty⟩
  have hwatched : (life c.watched (r.read split)).on ⟨⟨w, []⟩, config, t, Counters.empty⟩ =
      (((life c (r.read split)).on ⟨w, config, t, Counters.empty⟩).1,
        ((life c (r.read split)).on ⟨w, config, t, Counters.empty⟩).2.watched calls) :=
    hshows.on_eq []
  have hon : (run c.watched reader config split).on ⟨w, []⟩ =
      (((run c reader config split).on w).1, ⟨((run c reader config split).on w).2, calls⟩) := by
    rw [on_run hreader htask, on_run (c := c.watched) hreader htask, hwatched]
    rfl
  have hcalls : callsOf c reader config split w = calls := by rw [callsOf, hon]
  rw [hcalls]
  refine ⟨failure, hlived, hon, ?_, ?_⟩
  · rintro f rfl
    rw [on_run hreader htask, hshows.outcome]
    rfl
  · rintro rfl
    refine ⟨_, by rw [on_run hreader htask, hshows.outcome]; rfl, fun g n => ?_⟩
    have hbooks := hshows.books rfl g n
    rw [Counters.value_add, hbooks, Counters.value_empty, Int.zero_add]

theorem MapsRows.eq_none_iff {rows : List Row} {told : List Told} {first : Option Failure}
    (h : MapsRows rows told first) : first = none ↔ ∀ p ∈ told, p.2 = .ok () := by
  cases h with
  | all => simp
  | upTo before r after f =>
    refine ⟨nofun, fun hall => ?_⟩
    cases hall (.map r, .error f) (by simp)

/-- A life ends without failure if reading and every call returned. -/
theorem Lived.eq_none_iff {feed : Feed} {told : List Told} {failure : Option Failure}
    (h : Lived feed told failure) :
    failure = none ↔ feed.failure = none ∧ ∀ p ∈ told, p.2 = .ok () := by
  cases h with
  | unset f => simp
  | cleaned h =>
    rw [Option.or_eq_none_iff, h.eq_none_iff, and_comm]
    simp [or_imp, forall_and]
  | uncleaned h f =>
    refine ⟨nofun, fun ⟨_, hall⟩ => ?_⟩
    cases hall (.cleanup, .error f) (by simp)

/-- **A task ended with the failure**, and its result tells it: the kind of the failure, its message, and
where it was raised, which is left out. -/
def EndsWith (ended : Except Failure Counters) (result : Engine.LocalJob.TaskResult) (f : Failure) :
    Prop :=
  ended = .error f ∧ result = .error (f.kind.label ++ ": " ++ f.message ++ "\n<traceback>")

open Engine in
theorem resultOf_error {f : Failure} (h : f.isOrdinary = true) :
    LocalJob.resultOf (.error f) = .ok (.error (LocalJob.taskReport f)) :=
  if_pos h

theorem endsWith_taskReport {ended : Except Failure Counters} {f : Failure} (h : ended = .error f) :
    EndsWith ended (.error (Engine.LocalJob.taskReport f)) f :=
  ⟨h, rfl⟩

open Engine in
/-- **A task follows its life cycle whatever fails.** If the reader or the task cannot be made, nothing is
called. Else the task lives on the rows that are read: it is set up, maps them up to the first on which it
fails and is cleaned up, if the setup returned. It succeeds exactly if all that was to be made, read and
called returned, and then ends with what its calls added to the counters, the rows and the task itself
counted besides. Else it has no counters, and it ends with the cleanup's failure or the first one. -/
theorem task_follows_life_cycle {c : TaskClass σ τ} (hc : c.Ordinary) {reader : ReaderClass}
    (hr : reader.Ordinary) (config : Config.Flat) (split : Value) (w : σ) :
    ∃ result, LocalJob.resultOf ((run c reader config split).on w).1 = .ok result ∧
      (run c.watched reader config split).on ⟨w, []⟩ =
        (((run c reader config split).on w).1,
          ⟨((run c reader config split).on w).2, callsOf c reader config split w⟩) ∧
      (∀ f, NotMade c reader config f →
        callsOf c reader config split w = [] ∧ EndsWith ((run c reader config split).on w).1 result f) ∧
      (∀ r t, reader.create (.this config) = .ok r → c.create = .ok t → ∃ failure,
        Lived (r.read split) ((callsOf c reader config split w).map Called.told) failure ∧
        (∀ f, failure = some f → EndsWith ((run c reader config split).on w).1 result f) ∧
        (failure = none → ∃ counters, result = .ok counters ∧ ∀ g n, counters.value g n =
          ((callsOf c reader config split w).map fun e => e.added g n).sum +
            recordsOf (r.read split).rows.length g n + if group = g ∧ mapTasks = n then 1 else 0)) ∧
      ((∃ counters, result = .ok counters) ↔
        ∃ r t, reader.create (.this config) = .ok r ∧ c.create = .ok t ∧
          (r.read split).failure = none ∧ ∀ e ∈ callsOf c reader config split w, e.told.2 = .ok ()) := by
  have hordinary : ∀ f, ((run c reader config split).on w).1 = .error f → f.isOrdinary = true :=
    hc.run hr config split w
  rcases not_made_or_made c reader config with ⟨f, hf⟩ | ⟨r, t, hreader, htask⟩
  · have hon : (run c reader config split).on w = (.error f, w) := on_run_of_not_made hf w
    have hon' : (run c.watched reader config split).on ⟨w, []⟩ = (.error f, ⟨w, []⟩) :=
      on_run_of_not_made (c := c.watched) hf ⟨w, []⟩
    have hcalls : callsOf c reader config split w = [] := by rw [callsOf, hon']
    refine ⟨.error (LocalJob.taskReport f), ?_, by rw [hon', hon, hcalls], fun f' hf' => ⟨hcalls, ?_⟩,
      fun r t hreader htask => (hf.absurd hreader htask).elim, nofun, ?_⟩
    · rw [hon]
      exact resultOf_error (hordinary f (by rw [hon]))
    · rw [← hf.unique hf', hon]
      exact endsWith_taskReport rfl
    · rintro ⟨r, t, hreader, htask, -⟩
      exact (hf.absurd hreader htask).elim
  · obtain ⟨failure, hlived, hwatched, hfailed, hcounted⟩ :=
      run_watched_of_made split hreader htask w
    have hsame : ∀ r' t', reader.create (.this config) = .ok r' → c.create = .ok t' → r' = r :=
      fun r' _ hreader' _ => Except.ok.inj (hreader'.symm.trans hreader)
    have hreturned : failure = none ↔
        (r.read split).failure = none ∧ ∀ e ∈ callsOf c reader config split w, e.told.2 = .ok () := by
      rw [hlived.eq_none_iff]
      simp only [List.forall_mem_map]
    cases failure with
    | none =>
      obtain ⟨counters, hrun, hvalues⟩ := hcounted rfl
      refine ⟨.ok counters, by rw [hrun]; rfl, hwatched, fun f hf => (hf.absurd hreader htask).elim,
        fun r' t' hreader' htask' => ?_, fun _ => ⟨r, t, hreader, htask, hreturned.mp rfl⟩,
        fun _ => ⟨counters, rfl⟩⟩
      obtain rfl := hsame r' t' hreader' htask'
      exact ⟨none, hlived, fun _ hf => (by cases hf), fun _ => ⟨counters, rfl, hvalues⟩⟩
    | some f =>
      have hrun := hfailed f rfl
      refine ⟨.error (LocalJob.taskReport f), by rw [hrun]; exact resultOf_error (hordinary f hrun),
        hwatched, fun f hf => (hf.absurd hreader htask).elim, fun r' t' hreader' htask' => ?_,
        fun ⟨_, h⟩ => (by cases h), ?_⟩
      · obtain rfl := hsame r' t' hreader' htask'
        refine ⟨some f, hlived, fun f' hf' => ?_, fun h => by cases h⟩
        exact Option.some.inj hf' ▸ endsWith_taskReport hrun
      · rintro ⟨r', t', hreader', htask', hall⟩
        obtain rfl := hsame r' t' hreader' htask'
        cases hreturned.mpr hall

/-- A task that fails on rows without entries, and always when it is cleaned up. -/
def brokenTask : TaskClass Unit Unit where
  name := "Broken"
  create := .ok ()
  setup := pure ()
  map r := if r.entries.isEmpty then throw (.missing "entries") else pure ()
  cleanup := throw (.missing "rest")

/-- A row with an entry. -/
def fullRow : Row := ⟨.int 1, [(.text "c", .int 1)]⟩

/-- A reader of three rows, the second of which has no entries. -/
def threeRows : ReaderClass where
  name := "Three"
  create _ := .ok ⟨.ok [], fun _ => ⟨[fullRow, ⟨.int 2, []⟩, fullRow], none⟩⟩

theorem brokenTask_ordinary : brokenTask.Ordinary where
  create _ h := by cases h
  setup := Act.failsWith_pure ()
  map r := by
    unfold brokenTask
    dsimp only
    split
    · exact Act.failsWith_throw rfl
    · exact Act.failsWith_pure ()
  cleanup := Act.failsWith_throw rfl

theorem threeRows_ordinary : threeRows.Ordinary where
  create _ _ h := by cases h
  splits _ _ _ h hf := by
    cases h
    cases hf
  read _ _ _ _ h hf := by
    cases h
    cases hf

/-- It is cleaned up after the second row, and the cleanup's failure is told. -/
theorem brokenTask_lives : brokenTask.Ordinary ∧ threeRows.Ordinary ∧
    (∃ failure, Lived ⟨[fullRow, ⟨.int 2, []⟩, fullRow], none⟩
      [(.setup, .ok ()), (.map fullRow, .ok ()), (.map ⟨.int 2, []⟩, .error (.missing "entries")),
        (.cleanup, .error (.missing "rest"))] failure) ∧
    Engine.LocalJob.resultOf ((run brokenTask threeRows Config.Flat.empty .none).on ()).1 =
      .ok (.error "ValueError: rest must not be None\n<traceback>") := by
  obtain ⟨result, hresult, -, -, hlives, -⟩ := task_follows_life_cycle brokenTask_ordinary
    threeRows_ordinary Config.Flat.empty .none ()
  obtain ⟨failure, hlived, -⟩ := hlives _ () rfl rfl
  exact ⟨brokenTask_ordinary, threeRows_ordinary, ⟨failure, hlived⟩, rfl⟩

end Task

end ScanJobs
