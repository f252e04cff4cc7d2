import ScanJobs.Bootstrap
import ScanJobs.Settings.Load
import ScanJobs.Proofs.Config.Spellings
import ScanJobs.Proofs.Number.Order

/-! # Settings that load start

Settings are checked when they are loaded, and again by the engine and the configuration that are made of
them. What passes the first check passes the second and is not changed by it (`engine_eq`,
`configuration_eq`): a number above zero is not at it or below, and a key that is trimmed is trimmed no
further. Settings are also what their own entries load where nothing else gives a setting
(`load_arguments`). -/

namespace ScanJobs.Settings

open Text

/-! ### The engine -/

theorem checkWorkers_ok {n : Int} (h : 1 ≤ n) : Engine.Local.checkWorkers (.int n) = .ok () := by
  have hnot : ¬ n * 1 < 1 * 1 := by omega
  have hcompare : Value.compare .below (.int n) (.int 1) = .ok false :=
    congrArg Except.ok (decide_eq_false hnot)
  rw [Engine.Local.checkWorkers, hcompare]

theorem checkPoll_ok {x : Double} (h : x.isPositive = true) :
    Engine.Local.checkPoll (.float x) = .ok () := by
  have hnot : ¬ x.number.le (Number.ofInt 0) = true := by
    rw [Number.le_eq_false_of_lt h]
    decide
  exact if_neg hnot

theorem poolOf_name (p : Pool) : Engine.Local.poolOf (.text p.name) = .ok p := by
  cases p <;> rfl

theorem startOf_name (m : Option StartMethod) :
    Engine.Local.startOf ((m.map fun m => Value.text m.name).getD .none) = .ok m := by
  rcases m with _ | m
  · rfl
  · cases m <;> rfl

/-- **The engine has the settings as they are.** -/
theorem engine_eq (s : Settings) :
    s.engine = .ok ⟨s.pool, .int s.maxWorkers, .float s.poll, s.start⟩ := by
  refine bind_eq_ok_iff.mpr ⟨_, poolOf_name s.pool, ?_⟩
  refine bind_eq_ok_iff.mpr ⟨(), checkWorkers_ok s.maxWorkers_pos, ?_⟩
  refine bind_eq_ok_iff.mpr ⟨(), checkPoll_ok s.poll_pos, ?_⟩
  exact bind_eq_ok_iff.mpr ⟨_, startOf_name s.start, rfl⟩

/-! ### The configuration -/

/-- **The configuration holds the properties as they are**, for their keys are trimmed already. -/
theorem configuration_eq (s : Settings) :
    s.configuration = .ok ⟨s.properties.map Config.FlatText.written⟩ := by
  have htrimmed : Config.Flat.Trimmed ⟨s.properties.map Config.FlatText.written⟩ := by
    intro key t ht
    have hget : (s.properties.get? key).map Config.FlatText.written = some t :=
      (Table.get?_map ..).symm.trans ht
    obtain ⟨v, hv, -⟩ := Option.map_eq_some_iff.mp hget
    obtain ⟨hblank, hstrip⟩ := s.proper key (Table.mem_keys_iff.mpr ⟨v, hv⟩)
    exact ⟨hblank, hstrip⟩
  have hcopy := htrimmed.ofEntries_eq_copy
  simpa [Config.Flat.copy, Table.map, Config.FlatText.value, Config.FlatText.spelledOut,
    Value.plain, configuration, Function.comp_def] using hcopy

/-! ### Loading again -/

/-- The names of the settings. -/
def names : List String :=
  [poolName, workersName, pollName, startName, propertiesName]

/-- The settings as arguments. -/
def arguments (s : Settings) : List (Value × Value) :=
  s.entries.map fun e => (.text e.1, e.2)

/-- **Nothing around gives a setting**: no variable has the name of one, in letters of either case, and
there is no file. -/
structure Silent (around : Surroundings) : Prop where
  environment : ∀ e ∈ around.environment, lower e.1 ∉ names
  file : around.file = none

/-- Entries are inserted one by one if each name is new to the entries before it. -/
theorem foldl_eq_insertAll {f : Layer → String × Value → Layer}
    (hf : ∀ (t : Layer) e, t.get? e.1 = none → f t e = t.insert e.1 e.2) {es : List (String × Value)}
    {t : Layer} (h : (t.keys ++ es.map Prod.fst).Nodup) : es.foldl f t = t.insertAll es := by
  induction es generalizing t with
  | nil => rfl
  | cons e es ih =>
    have hk : e.1 ∉ t.keys := fun hmem =>
      (List.nodup_append.mp h).2.2 _ hmem _ (List.mem_cons_self ..) rfl
    have hnone : t.get? e.1 = none := by
      rw [Option.eq_none_iff_forall_ne_some]
      exact fun v hv => hk (Table.mem_keys_iff.mpr ⟨v, hv⟩)
    have hkeys : (t.insert e.1 e.2).keys = t.keys ++ [e.1] := by
      rw [Table.keys, Table.entries_insert_of_not_mem hk, List.map_append]
      rfl
    have hrest : ((t.insert e.1 e.2).keys ++ es.map Prod.fst).Nodup := by
      rwa [hkeys, List.append_assoc]
    rw [List.foldl_cons, hf t e hnone, ih hrest]
    rfl

/-- A layer over nothing is the layer. -/
theorem over_empty (layer : Layer) : Layer.over layer Table.empty = layer := by
  have hall : Layer.over layer Table.empty = Table.insertAll Table.empty layer.entries := by
    refine foldl_eq_insertAll (fun t e hnone => ?_) layer.nodup
    rw [hnone]
  exact hall.trans (Table.ofList_entries layer)

theorem layerOfVariables_silent {bound : Table String (Option String)}
    (h : ∀ name ∈ names, bound.get? name = none) (source : String) :
    layerOfVariables source bound = .ok Table.empty := by
  refine foldlM_eq_ok_self fun name hname => ?_
  rw [h name hname]
  rfl

theorem Silent.layerOfVariables_environment {around : Surroundings} (h : Silent around)
    (source : String) :
    layerOfVariables source (byLowerName (around.environment.map fun e => (e.1, some e.2))) =
      .ok Table.empty := by
  refine layerOfVariables_silent (fun name hname => ?_) source
  refine Table.get?_insertAll_of_not_mem (fun hmem => ?_) Table.empty
  rw [List.map_map, List.map_map] at hmem
  obtain ⟨e, he, rfl⟩ := List.mem_map.mp hmem
  exact h.environment e he hname

theorem map_fst_entries (s : Settings) : s.entries.map Prod.fst = names := rfl

theorem lower_of_mem_names : ∀ name ∈ names, lower name = name := by decide

theorem layerOfArguments_arguments (s : Settings) :
    layerOfArguments s.arguments = .ok (Table.ofList s.entries.reverse) := by
  have hnamed : namedArguments s.arguments = .ok s.entries := by
    refine mapM_eq_ok_iff.mpr ?_
    rw [arguments, List.map_map]
    rfl
  have hlower : s.entries.reverse.map (fun e => (lower e.1, e.2)) = s.entries.reverse := by
    refine (List.map_congr_left fun e he => ?_).trans (List.map_id _)
    have hname : e.1 ∈ names := List.mem_map_of_mem (List.mem_reverse.mp he)
    rw [lower_of_mem_names e.1 hname]
    rfl
  rw [layerOfArguments, hnamed]
  exact congrArg (fun es => Except.ok (Table.ofList es)) hlower

theorem get?_entries {s : Settings} {name : String} {v : Value} (h : (name, v) ∈ s.entries) :
    (Table.ofList s.entries.reverse).get? name = some v := by
  have hnodup : (s.entries.reverse.map Prod.fst).Nodup := by
    rw [List.map_reverse, map_fst_entries]
    decide
  rw [Table.get?_eq_some_iff, Table.entries_ofList hnodup, List.mem_reverse]
  exact h

/-! ### Each setting -/

section
variable {layer : Layer} {s : Settings} (hlayer : ∀ name v, (name, v) ∈ s.entries → layer.get? name = some v)
include hlayer

theorem poolOf_entry : poolOf layer = .ok s.pool := by
  rw [poolOf, hlayer poolName (.text s.pool.name) (by simp [entries])]
  cases s.pool <;> rfl

theorem workersOf_entry : workersOf layer = .ok ⟨s.maxWorkers, s.maxWorkers_pos⟩ := by
  rw [workersOf, hlayer workersName (.int s.maxWorkers) (by simp [entries])]
  have hcheck : (if h : 1 ≤ s.maxWorkers then (.ok ⟨s.maxWorkers, h⟩ : Except FaultType { n : Int // 1 ≤ n })
      else .error .greaterThanEqual) = .ok ⟨s.maxWorkers, s.maxWorkers_pos⟩ := dif_pos s.maxWorkers_pos
  exact congrArg (check workersName) hcheck

theorem pollOf_entry : pollOf layer = .ok ⟨s.poll, s.poll_pos⟩ := by
  rw [pollOf, hlayer pollName (.float s.poll) (by simp [entries])]
  have hcheck : (if h : s.poll.isPositive = true then
      (.ok ⟨s.poll, h⟩ : Except FaultType { x : Double // x.isPositive = true })
      else .error .greaterThan) = .ok ⟨s.poll, s.poll_pos⟩ := dif_pos s.poll_pos
  exact congrArg (check pollName) hcheck

theorem startOf_entry : startOf layer = .ok s.start := by
  rw [startOf, hlayer startName ((s.start.map fun m => Value.text m.name).getD .none)
    (by simp [entries])]
  rcases s.start with _ | m
  · rfl
  · cases m <;> rfl

theorem propertiesOf_entry : propertiesOf layer = .ok ⟨s.properties, s.proper⟩ := by
  have hread : ∀ es : List (String × String),
      checkAll ((es.map fun e => (Value.text e.1, Value.text e.2)).map propertyOf) = .ok es := by
    intro es
    induction es with
    | nil => rfl
    | cons e es ih =>
      have hfirst : propertyOf (.text e.1, .text e.2) = .ok e := rfl
      rw [List.map_cons, List.map_cons, hfirst, checkAll, ih]
      rfl
  -- the keys are trimmed, and none is lost
  have htable : propertyTable s.properties.entries = s.properties := by
    have hstrip : s.properties.entries.map (fun e => (strip e.1, e.2)) = s.properties.entries := by
      refine (List.map_congr_left fun e he => ?_).trans (List.map_id _)
      rw [(s.proper e.1 (List.mem_map_of_mem he)).2]
      rfl
    rw [propertyTable, Table.ofList_entries, hstrip, Table.ofList_entries]
  rw [propertiesOf, hlayer propertiesName
    (.map (s.properties.entries.map fun e => (.text e.1, .text e.2))) (by simp [entries])]
  refine bind_eq_ok_iff.mpr ⟨_, hread s.properties.entries, ?_⟩
  have hblank : ∀ key ∈ (propertyTable s.properties.entries).keys, isBlank key = false := by
    rw [htable]
    exact fun key hkey => (s.proper key hkey).1
  exact (dif_pos hblank).trans (congrArg Except.ok (Subtype.ext htable))

theorem ofLayer_entries (loaded : Bool) : ofLayer loaded layer = .ok s := by
  rw [ofLayer, poolOf_entry hlayer, workersOf_entry hlayer, pollOf_entry hlayer, startOf_entry hlayer,
    propertiesOf_entry hlayer]

end

/-- **Settings are what their own entries load**, where nothing else gives a setting. -/
theorem load_arguments (s : Settings) {around : Surroundings} (h : Silent around) :
    load (some s.arguments) around = .ok s := by
  refine bind_eq_ok_iff.mpr ⟨_, layerOfArguments_arguments s, ?_⟩
  refine bind_eq_ok_iff.mpr ⟨_, h.layerOfVariables_environment _, ?_⟩
  have hfile : layerOfVariables "DotEnvSettingsSource" (byLowerName
      ((around.file.map (Dotenv.read (Table.ofList around.environment))).getD Table.empty).entries) =
      .ok Table.empty := by
    rw [h.file]
    exact layerOfVariables_silent (fun _ _ => rfl) _
  refine bind_eq_ok_iff.mpr ⟨_, hfile, ?_⟩
  rw [over_empty, over_empty]
  exact ofLayer_entries (fun _ _ => get?_entries) _

/-! ### All settings -/

/-- **The settings start**, and they last: an engine and a configuration are made of them that have what
they say, and their own entries load them again. -/
structure Starts (s : Settings) : Prop where
  engine : s.engine = .ok ⟨s.pool, .int s.maxWorkers, .float s.poll, s.start⟩
  configuration : ∃ c, s.configuration = .ok c ∧ c.values = s.properties.map Config.FlatText.written ∧
    ∀ key, c.get? key = s.properties.get? key
  again : ∀ around, Silent around → load (some s.arguments) around = .ok s

/-- **Settings that load always start**, wherever they came from. -/
theorem loaded_settings_start (arguments : Option (List (Value × Value))) (around : Surroundings) :
    ∀ s, load arguments around = .ok s → Starts s := by
  intro s _
  refine ⟨engine_eq s, ⟨_, configuration_eq s, rfl, fun key => ?_⟩, fun _ h => load_arguments s h⟩
  have hstored := Table.get?_map s.properties Config.FlatText.written key
  rw [Config.Flat.get?, Config.Flat.stored?, hstored, Option.map_map]
  cases s.properties.get? key <;> rfl

theorem one_le_seven : (1 : Int) ≤ 7 := by decide

theorem half_pos : half.isPositive = true := by decide

theorem queue_proper : ∀ key ∈ (Table.ofList [("queue", "b")]).keys,
    isBlank key = false ∧ strip key = key := by decide

/-- Threads, seven of them, and one property. -/
def sevenThreads : Settings where
  pool := .thread
  maxWorkers := 7
  poll := half
  start := none
  properties := Table.ofList [("queue", "b")]
  maxWorkers_pos := one_le_seven
  poll_pos := half_pos
  proper := queue_proper

/-- Of two spellings of a property the second counts, and a blank start is none. -/
theorem sevenThreads_start :
    load (some [(.text "SCAN_LOCAL_EXECUTOR", .text " Thread "), (.text startName, .text " "),
        (.text propertiesName, .map [(.text "queue", .text "a"), (.text " queue ", .text "b")])])
      ⟨[("SCAN_LOCAL_MAX_WORKERS", " 007 ")], none⟩ = .ok sevenThreads ∧ Starts sevenThreads :=
  ⟨rfl, loaded_settings_start
    (some [(.text "SCAN_LOCAL_EXECUTOR", .text " Thread "), (.text startName, .text " "),
      (.text propertiesName, .map [(.text "queue", .text "a"), (.text " queue ", .text "b")])])
    ⟨[("SCAN_LOCAL_MAX_WORKERS", " 007 ")], none⟩ _ rfl⟩

end ScanJobs.Settings
