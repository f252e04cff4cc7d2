import ScanJobs.Proofs.Config.Reserved
import ScanJobs.Proofs.Config.Writes
import ScanJobs.Proofs.Schema.Addresses

/-! # The cells of a view

An option below the root of a view, with names that fit, is a cell: its key is its own (`Cell.unique`),
lies below the prefix and is stored as it is written (`Cell.exists_key`). Calls on cells change them one
at a time. What is read from a cell is what the last call that stored something there has stored; calls
that fail and calls on other cells leave it alone (`stored?_after`). -/

namespace ScanJobs.Config

open Schema Text

/-! ### Calls -/

/-- A call that stores a value of an option, under names of the user. -/
structure SetCall where
  option : OptionRef
  value : Value
  names : List String

namespace SetCall

/-- What the call does through a view. -/
def act (w : View) (call : SetCall) : Act Flat Unit :=
  Act.tryChange fun c => w.set c call.option call.value call.names

/-- The configuration after the call. -/
def next (w : View) (call : SetCall) (c : Flat) : Flat :=
  ((call.act w).on c).2

/-- The call stores this text. -/
def Stores (call : SetCall) (text : String) : Prop :=
  serialize call.option call.value = .ok text

variable {w : View} {call : SetCall} {key text : String} {c : Flat}

theorem on_act_of_stores (hkey : w.keyFor call.option.site call.names = .ok key)
    (hb : isBlank key = false) (h : call.Stores text) :
    (call.act w).on c = (.ok (), c.put key text) := by
  have hset : w.set c call.option call.value call.names = .ok (c.put key text) := by
    rw [View.set, hkey]
    refine bind_eq_ok_iff.mpr ⟨key, rfl, bind_eq_ok_iff.mpr ⟨text, h, ?_⟩⟩
    rw [Flat.set, hb]
    rfl
  rw [act, Act.on_tryChange, hset]

theorem on_act_of_error {f : Failure} (hkey : w.keyFor call.option.site call.names = .ok key)
    (h : serialize call.option call.value = .error f) : (call.act w).on c = (.error f, c) := by
  have hset : w.set c call.option call.value call.names = .error f := by
    rw [View.set, hkey]
    exact bind_eq_error_iff.mpr (.inr ⟨key, rfl, bind_eq_error_iff.mpr (.inl h)⟩)
  rw [act, Act.on_tryChange, hset]

end SetCall

/-- **A call that has a key stores a text or fails**, and a failure leaves the configuration alone. -/
theorem SetCall.act_cases {w : View} {call : SetCall} {key : String}
    (hkey : w.keyFor call.option.site call.names = .ok key) (hb : isBlank key = false) (c : Flat) :
    (∃ text, call.Stores text ∧ (call.act w).on c = (.ok (), c.put key text)) ∨
      ∃ f, serialize call.option call.value = .error f ∧ (call.act w).on c = (.error f, c) := by
  cases h : serialize call.option call.value with
  | ok text => exact .inl ⟨text, h, on_act_of_stores hkey hb h⟩
  | error f => exact .inr ⟨f, rfl, on_act_of_error hkey h⟩

/-- **The configuration after calls**, each of which may have failed. -/
def View.after (w : View) (calls : List SetCall) (c : Flat) : Flat :=
  calls.foldl (fun c call => call.next w c) c

theorem View.after_append (w : View) (calls calls' : List SetCall) (c : Flat) :
    w.after (calls ++ calls') c = w.after calls' (w.after calls c) :=
  List.foldl_append ..

/-! ### Cells -/

/-- **A cell of the view of a scope**: an option declared below the scope, and names that fit. -/
structure Cell (s : Schema) (n : Node) (o : OptionRef) (names : List String) : Prop where
  held : ∃ d, s.Holds ⟨o.site, .option d o.type o.default⟩
  fits : ∃ ls, o.site.below? n.site = some ls ∧ Fits n.element ls names

namespace Cell

variable {s : Schema} {n : Node} {o o' : OptionRef} {names names' : List String} {above key : String}

/-- A cell has an address from the scope. -/
theorem exists_addresses (hn : s.Holds n) (hscope : n.element.isOption = false)
    (h : Cell s n o names) : ∃ ls d, o.site = n.site.along ls ∧
      Addresses n.element ls names (.option d o.type o.default) := by
  obtain ⟨⟨d, hheld⟩, ls, hbelow, hfits⟩ := h
  obtain ⟨hsite, hleads⟩ := hn.of_below? hheld hbelow
  refine ⟨ls, d, hsite, hleads, hfits, .inl ?_⟩
  rintro rfl
  -- the scope itself is no option
  obtain ⟨site, e⟩ := n
  cases hleads
  cases hscope

/-- **The key of a cell** lies below the prefix, and has no blanks at its ends. -/
theorem exists_key (hn : s.Holds n) (hscope : n.element.isOption = false) (ha : Solid above)
    (h : Cell s n o names) : ∃ path, View.keyFor ⟨n, above⟩ o.site names = .ok (above ++ "." ++ path) ∧
      Solid (above ++ "." ++ path) := by
  obtain ⟨ls, d, hsite, haddress⟩ := h.exists_addresses hn hscope
  obtain ⟨path, hpath, hparse⟩ := haddress.parse_pathFrom hn.kind_eq
  rw [← hsite] at hpath
  refine ⟨path, View.keyFor_eq_ok_iff.mpr ⟨path, hpath, rfl⟩, ?_⟩
  exact solid_of_pathFrom hn ha hparse rfl (by rw [← hsite]; exact hpath)

/-- **No two cells share a key.** -/
theorem unique (hn : s.Holds n) (hscope : n.element.isOption = false) (h : Cell s n o names)
    (h' : Cell s n o' names') (hkey : View.keyFor ⟨n, above⟩ o.site names = .ok key)
    (hkey' : View.keyFor ⟨n, above⟩ o'.site names' = .ok key) : o = o' ∧ names = names' := by
  obtain ⟨ls, d, hsite, haddress⟩ := h.exists_addresses hn hscope
  obtain ⟨ls', d', hsite', haddress'⟩ := h'.exists_addresses hn hscope
  obtain ⟨path, hpath, rfl⟩ := View.keyFor_eq_ok_iff.mp hkey
  obtain ⟨path', hpath', hsame⟩ := View.keyFor_eq_ok_iff.mp hkey'
  obtain rfl : path' = path := String.append_right_inj _ |>.mp hsame
  rw [hsite] at hpath
  rw [hsite'] at hpath'
  obtain ⟨rfl, rfl⟩ := haddress.unique hn.kind_eq haddress' (hpath.trans hpath'.symm)
  refine ⟨?_, rfl⟩
  have hat := haddress.leads.at?_eq.symm.trans haddress'.leads.at?_eq
  obtain ⟨site, τ, default⟩ := o
  obtain ⟨site', τ', default'⟩ := o'
  obtain rfl : site = site' := hsite.trans hsite'.symm
  cases hat
  rfl

end Cell

/-! ### What calls leave behind -/

variable {s : Schema} {n : Node} {above : String} {calls : List SetCall} {key : String}

/-- **A key keeps what is stored** through calls on cells none of which stores a text there. -/
theorem stored?_after (hn : s.Holds n) (hscope : n.element.isOption = false) (ha : Solid above)
    (hcalls : ∀ call ∈ calls, Cell s n call.option call.names)
    (hother : ∀ call ∈ calls, ∀ text, call.Stores text →
      View.keyFor ⟨n, above⟩ call.option.site call.names ≠ .ok key) (c : Flat) :
    (View.after ⟨n, above⟩ calls c).stored? key = c.stored? key := by
  induction calls generalizing c with
  | nil => rfl
  | cons call calls ih =>
    obtain ⟨hcell, hcells⟩ := List.forall_mem_cons.mp hcalls
    obtain ⟨hfirst, hrest⟩ := List.forall_mem_cons.mp hother
    refine (ih hcells hrest (call.next ⟨n, above⟩ c)).trans ?_
    obtain ⟨path, hkey, hsolid⟩ := hcell.exists_key hn hscope ha
    rw [SetCall.next]
    rcases SetCall.act_cases hkey hsolid.isBlank_eq c with ⟨text, htext, hact⟩ | ⟨f, -, hact⟩
    · have hne : strip (above ++ "." ++ path) ≠ key := by
        rw [hsolid.strip_eq]
        rintro rfl
        exact hfirst text htext hkey
      rw [hact, Flat.stored?_put, if_neg hne]
    · rw [hact]

theorem View.get_of_stored {w : View} {c : Flat} {o : OptionRef} {names : List String} {text : String}
    (hkey : w.keyFor o.site names = .ok key) (h : c.stored? key = some (.written text)) :
    w.get c o names = validate o (.text text) := by
  rw [View.get, hkey]
  simp only [bind, Except.bind, h]
  rfl

theorem View.get_congr {w : View} {c c' : Flat} {o : OptionRef} {names : List String}
    (hkey : w.keyFor o.site names = .ok key) (h : c.stored? key = c'.stored? key) :
    w.get c o names = w.get c' o names := by
  rw [View.get, View.get, hkey]
  simp only [bind, Except.bind, h]

/-- What was stored in a cell stays there until something else is stored. -/
theorem stored?_after_stores (hn : s.Holds n) (hscope : n.element.isOption = false) (ha : Solid above)
    {before after : List SetCall} {call : SetCall}
    (hcalls : ∀ call' ∈ before ++ call :: after, Cell s n call'.option call'.names)
    (hkey : View.keyFor ⟨n, above⟩ call.option.site call.names = .ok key) (hsolid : Solid key)
    {text : String} (htext : call.Stores text)
    (hlast : ∀ call' ∈ after, call'.option = call.option → call'.names = call.names →
      ∀ text', ¬call'.Stores text') (c : Flat) :
    (View.after ⟨n, above⟩ (before ++ call :: after) c).stored? key = some (.written text) := by
  have hcell := hcalls call (by simp)
  have hafter : ∀ call' ∈ after, Cell s n call'.option call'.names :=
    fun call' hmem => hcalls call' (by simp [hmem])
  have hother : ∀ call' ∈ after, ∀ text', call'.Stores text' →
      View.keyFor ⟨n, above⟩ call'.option.site call'.names ≠ .ok key := by
    intro call' hmem text' hstores hkey'
    obtain ⟨ho, hnames⟩ := (hafter call' hmem).unique hn hscope hcell hkey' hkey
    exact hlast call' hmem ho hnames text' hstores
  have hsplit : View.after ⟨n, above⟩ (before ++ call :: after) c =
      View.after ⟨n, above⟩ after (call.next ⟨n, above⟩ (View.after ⟨n, above⟩ before c)) :=
    View.after_append ..
  rw [hsplit, stored?_after hn hscope ha hafter hother, SetCall.next,
    SetCall.on_act_of_stores hkey hsolid.isBlank_eq htext, Flat.stored?_put, if_pos hsolid.strip_eq]

theorem View.create_eq_ok_iff {n : Node} {above : String} {w : View} :
    View.create n above = .ok w ↔ isBlank above = false ∧ w = ⟨n, strip above⟩ := by
  unfold View.create View.properPrefix
  cases isBlank above with
  | true => simp [Except.map]
  | false => simp [Except.map, eq_comm]

/-- **A view is a store of independent cells.** After any calls on cells a cell is read as what the last
call that stored a text there has stored, or as before if there was none. A call succeeds if its value
has a text, and changes nothing if it fails. No key changes that does not begin with the trimmed prefix
and a dot. -/
theorem view_stores_cells {s : Schema} {n : Node} (hn : s.Holds n) (hscope : n.element.isOption = false)
    {above : String} {w : View} (hw : View.create n above = .ok w) {calls : List SetCall}
    (hcalls : ∀ call ∈ calls, Cell s n call.option call.names) (c : Flat) :
    (∀ before call after text, calls = before ++ call :: after → call.Stores text →
      (∀ call' ∈ after, call'.option = call.option → call'.names = call.names →
        ∀ text', ¬call'.Stores text') →
      w.get (w.after calls c) call.option call.names = validate call.option (.text text)) ∧
    (∀ o names, Cell s n o names →
      (∀ call ∈ calls, call.option = o → call.names = names → ∀ text, ¬call.Stores text) →
      w.get (w.after calls c) o names = w.get c o names) ∧
    (∀ call ∈ calls, ∀ c, ((call.act w).on c).1 = .ok () ↔ ∃ text, call.Stores text) ∧
    (∀ call ∈ calls, ∀ c f, ((call.act w).on c).1 = .error f → ((call.act w).on c).2 = c) ∧
    ∀ key, startsWith (strip above ++ ".") key = false →
      (w.after calls c).stored? key = c.stored? key := by
  obtain ⟨hblank, rfl⟩ := View.create_eq_ok_iff.mp hw
  have ha : Solid (strip above) := solid_strip hblank
  refine ⟨?last, ?untouched, ?succeeds, ?fails, ?frame⟩
  case last =>
    rintro before call after text rfl hstores hlast
    obtain ⟨path, hkey, hsolid⟩ := (hcalls call (by simp)).exists_key hn hscope ha
    exact View.get_of_stored hkey
      (stored?_after_stores hn hscope ha hcalls hkey hsolid hstores hlast c)
  case untouched =>
    intro o names hcell hnone
    obtain ⟨path, hkey, -⟩ := hcell.exists_key hn hscope ha
    refine View.get_congr hkey (stored?_after hn hscope ha hcalls ?_ c)
    intro call hcall text hstores hkey'
    obtain ⟨ho, hnames⟩ := (hcalls call hcall).unique hn hscope hcell hkey' hkey
    exact hnone call hcall ho hnames text hstores
  case succeeds =>
    intro call hcall c
    obtain ⟨path, hkey, hsolid⟩ := (hcalls call hcall).exists_key hn hscope ha
    rcases SetCall.act_cases hkey hsolid.isBlank_eq c with ⟨text, htext, hact⟩ | ⟨f, hf, hact⟩
    · exact ⟨fun _ => ⟨text, htext⟩, fun _ => congrArg Prod.fst hact⟩
    · rw [hact]
      refine ⟨nofun, ?_⟩
      rintro ⟨text, htext⟩
      cases htext.symm.trans hf
  case fails =>
    intro call hcall c f herror
    obtain ⟨path, hkey, hsolid⟩ := (hcalls call hcall).exists_key hn hscope ha
    rcases SetCall.act_cases hkey hsolid.isBlank_eq c with ⟨text, -, hact⟩ | ⟨f', -, hact⟩
    · rw [hact] at herror
      cases herror
    · rw [hact]
  case frame =>
    intro key hkey
    refine stored?_after hn hscope ha hcalls (fun call hcall text _ hkey' => ?_) c
    obtain ⟨path, -, rfl⟩ := View.keyFor_eq_ok_iff.mp hkey'
    rw [startsWith_iff.mpr ⟨path, rfl⟩] at hkey
    cases hkey

/-- The option below the nested umbrellas. -/
def nestedOption : OptionRef :=
  ⟨nestedRoot.site.along [nestedScope, ⟨optionName, .option⟩], .integer, some .none⟩

theorem nestedOption_cell {names : List String}
    (h : Fits nestedUmbrellas [nestedScope, ⟨optionName, .option⟩] names) :
    Cell nestedSchema nestedRoot nestedOption names where
  held := by
    have hleads : Leads nestedUmbrellas [nestedScope, ⟨optionName, .option⟩]
        (.option .none .integer (some .none)) :=
      @Leads.down _ (.scope true .none _) _ _ _ rfl
        (@Leads.down _ (.option .none .integer (some .none)) _ _ _ rfl (.here _))
    exact ⟨.none, nestedSchema_holds.along hleads⟩
  fits := ⟨_, rfl, h⟩

theorem fits_one : Fits nestedUmbrellas [nestedScope, ⟨optionName, .option⟩] ["u"] where
  length_le := by decide
  proper := List.forall_mem_singleton.mpr ⟨by decide, by decide⟩
  free p hp := by
    obtain rfl := List.mem_singleton.mp hp
    rfl

/-- Two cells of one option: the second call fails, and the third is about the other cell. -/
def someCalls : List SetCall :=
  [⟨nestedOption, .int 5, ["u"]⟩, ⟨nestedOption, .text "many", ["u"]⟩, ⟨nestedOption, .int 7, []⟩]

/-- The first of these calls decides what is read. -/
theorem someCalls_leave_first : ∃ w, View.create nestedRoot " conf " = .ok w ∧
    (∀ call ∈ someCalls, Cell nestedSchema nestedRoot call.option call.names) ∧
    w.get (w.after someCalls Flat.empty) nestedOption ["u"] = .ok (.int 5) := by
  have hview : View.create nestedRoot " conf " = .ok ⟨nestedRoot, "conf"⟩ := rfl
  have hone := nestedOption_cell fits_one
  have hnone := nestedOption_cell (.nil nestedUmbrellas [nestedScope, ⟨optionName, .option⟩])
  have hcells : ∀ call ∈ someCalls, Cell nestedSchema nestedRoot call.option call.names := by
    simpa [someCalls] using ⟨hone, hnone⟩
  refine ⟨_, hview, hcells, ?_⟩
  have hread := (view_stores_cells nestedSchema_holds rfl hview hcells Flat.empty).1
    [] ⟨nestedOption, .int 5, ["u"]⟩ [⟨nestedOption, .text "many", ["u"]⟩, ⟨nestedOption, .int 7, []⟩]
    "5" rfl rfl ?_
  · exact hread
  · intro call hcall _ hnames text hstores
    rcases List.mem_cons.mp hcall with rfl | hcall
    · cases hstores
    · obtain rfl := List.mem_singleton.mp hcall
      cases hnames

end ScanJobs.Config
