import ScanJobs.Proofs.Config.Writes
import ScanJobs.Proofs.Schema.Weaving
import Mathlib.Tactic.ByContra

/-! # Keys and the paths of what they lead to

Reading a key and writing the path of what was found gives the key back if the schema keeps its
umbrellas apart. If it does not, two different keys lead to one element with the same names
(`exists_keys_of_not_umbrellasApart`): the name may stand after the upper umbrella or after the lower
one, and the path cannot tell. So keeping umbrellas apart is what a schema needs, no less
(`path_restores_keys_iff_umbrellasApart`). -/

namespace ScanJobs.Schema

open ScanJobs.Text ScanJobs.Config

/-- A name that a user may choose beside given ones. -/
theorem exists_fresh (avoid : List String) : ∃ u, u ∉ avoid ∧ Step.Proper u := by
  -- longer than all of them
  have hlong : ∀ l : List String, ∃ n, ∀ s ∈ l, s.toList.length < n := by
    intro l
    induction l with
    | nil => exact ⟨0, by simp⟩
    | cons s l ih =>
      obtain ⟨n, hn⟩ := ih
      refine ⟨max n (s.toList.length + 1), fun s' hs' => ?_⟩
      rcases List.mem_cons.mp hs' with rfl | hs'
      · omega
      · have := hn s' hs'
        omega
  obtain ⟨n, hn⟩ := hlong avoid
  refine ⟨String.ofList (List.replicate (n + 1) 'a'), fun h => ?_, ?_, ?_⟩
  · have := hn _ h
    rw [String.toList_ofList, List.length_replicate] at this
    omega
  · rw [isBlank, String.toList_ofList]
    exact rfl
  · rw [String.toList_ofList]
    intro h
    have := List.eq_of_mem_replicate h
    cases this

theorem Element.findChild_eq_none {u : String} {cs : List (Name × Element)}
    (h : u ∉ cs.map fun c => c.1.text) : findChild u cs = none := by
  cases hf : findChild u cs with
  | none => rfl
  | some c =>
    refine absurd (List.mem_map.mpr ⟨c, findChild_mem hf, ?_⟩) h
    exact findChild_text hf

/-- **Below an umbrella below another, two keys lead to one place.** -/
theorem Node.exists_keys_of_not_umbrellasApart {n : Node} (h : ¬ n.element.UmbrellasApart) :
    ∃ k₁ k₂ t, k₁ ≠ k₂ ∧ n.parse k₁ = .ok t ∧ n.parse k₂ = .ok t := by
  unfold Element.UmbrellasApart at h
  push Not at h
  obtain ⟨ls₁, ls₂, e₁, e₂, h₁, h₂, hne, hk₁, hk₂⟩ := h
  obtain ⟨d₁, cs₁, rfl⟩ := Element.kind_eq_umbrella_iff.mp hk₁
  obtain ⟨d₂, cs₂, rfl⟩ := Element.kind_eq_umbrella_iff.mp hk₂
  obtain ⟨u, hu, hproper⟩ := exists_fresh (cs₁.map (fun c => c.1.text) ++
    cs₂.map (fun c => c.1.text) ++ ls₂.map fun l => l.name.text)
  simp only [List.mem_append, not_or] at hu
  obtain ⟨⟨hu₁, hu₂⟩, huls⟩ := hu
  -- the name is given to the upper umbrella, or to the lower one
  have hupper : Reads n.element false
      (Step.downs ls₁ ++ Step.called u :: (Step.downs ls₂ ++ [])) (.scope true d₂ cs₂) :=
    h₁.reads_append_of_free (.called (Element.findChild_eq_none hu₁)
      (h₂.reads_append true hne (.done _ _)))
  have hlower : Reads n.element false
      (Step.downs (ls₁ ++ ls₂) ++ [Step.called u]) (.scope true d₂ cs₂) :=
    (h₁.append h₂).reads_append_of_free
      (.called (Element.findChild_eq_none hu₂) (.done _ _))
  have hpu : ∀ u' ∈ Step.users (Step.downs ls₁ ++ Step.called u :: (Step.downs ls₂ ++ [])),
      Step.Proper u' := by simpa using hproper
  have hpl : ∀ u' ∈ Step.users (Step.downs (ls₁ ++ ls₂) ++ [Step.called u]), Step.Proper u' := by
    simpa using hproper
  refine ⟨_, _, _, fun heq => ?_, Node.parse_join_texts hupper (by simp) hpu,
    (Node.parse_join_texts hlower (by simp) hpl).trans (by simp)⟩
  have hsplit := congrArg (split '.') heq
  rw [Step.split_join_texts (by simp) hpu, Step.split_join_texts (by simp) hpl] at hsplit
  simp only [Step.texts_append, Step.texts_downs, Step.texts_cons, Step.texts_nil, Step.text,
    List.map_append, List.append_assoc, List.append_cancel_left_eq, List.append_nil] at hsplit
  cases ls₂ with
  | nil => exact hne rfl
  | cons l ls =>
    simp only [List.map_cons, List.cons_append, List.cons.injEq] at hsplit
    exact huls (by simp [hsplit.1])

/-- Where umbrellas are apart, the path of what a key leads to is the key. -/
theorem Node.pathFrom_of_parse {n : Node} {key : String} {t : Target}
    (hk : n.site.last.kind = n.element.kind) (ha : n.element.UmbrellasApart)
    (h : n.parse key = .ok t) : t.site.pathFrom n.site t.names = .ok key := by
  obtain ⟨-, steps, htexts, hreads, hsite, hnames⟩ := Node.parse_eq_ok_iff.mp h
  rw [hsite, hnames, Node.pathFrom_of_topDown hk hreads (hreads.topDown ha), htexts, join_split]

/-- A key is the path of what it leads to exactly if its names were handed out from the top, unless
one of them is also the name of an element on the way. -/
theorem Node.topDown_of_pathFrom {n : Node} {e : Element} {steps : List Step}
    (hk : n.site.last.kind = n.element.kind) (h : Reads n.element false steps e) (hne : steps ≠ [])
    (hu : ∀ u ∈ Step.users steps, Step.Proper u)
    (hd : ∀ l ∈ Step.links steps, l.name.text ∉ Step.users steps)
    (hp : (n.site.along (Step.links steps)).pathFrom n.site (Step.users steps) =
      .ok (join '.' (Step.texts steps))) : TopDown n.element.kind steps := by
  obtain ⟨cs, hw, hperm, hp'⟩ := Node.pathFrom_of_reads hk h
  -- the components of path and key are the same, so both can be split again
  have hcs : cs ≠ [] := by
    rintro rfl
    simpa [Step.texts, hne] using hperm.symm.eq_nil
  have hsplit := congrArg (split '.') (Except.ok.inj (hp'.symm.trans hp))
  rw [Step.split_join_texts hne hu, split_join hcs fun c hcm =>
    (Step.proper_of_users hu c (hperm.mem_iff.mp hcm)).2] at hsplit
  refine h.topDown_of_weaveFrom_eq hd ?_
  change (weaveFrom n.element.kind _ _).1 = _
  rw [hw, hsplit]

/-- The names of the user in a key are proper. -/
theorem Step.proper_of_texts_eq {key : String} {steps : List Step}
    (hb : ∀ c ∈ split '.' key, isBlank c = false) (h : texts steps = split '.' key) :
    ∀ u ∈ users steps, Proper u := by
  intro u hu
  have hmem : u ∈ split '.' key := by
    rw [← h]
    exact (texts_perm steps).mem_iff.mpr (List.mem_append_right _ hu)
  exact ⟨hb u hmem, not_mem_of_mem_split hmem⟩

/-- **What a key leads to has a path of the same components**, though maybe in another order. -/
theorem Node.exists_pathFrom_perm {n : Node} {key : String} {t : Target}
    (hk : n.site.last.kind = n.element.kind) (h : n.parse key = .ok t) :
    ∃ path, t.site.pathFrom n.site t.names = .ok path ∧
      (split '.' path).Perm (split '.' key) := by
  obtain ⟨hb, steps, htexts, hreads, hsite, hnames⟩ := Node.parse_eq_ok_iff.mp h
  obtain ⟨cs, -, hperm, hpath⟩ := Node.pathFrom_of_reads hk hreads
  have hcs : cs ≠ [] := by
    rintro rfl
    exact split_ne_nil key (htexts.symm.trans hperm.symm.eq_nil)
  have hdots : ∀ c ∈ cs, '.' ∉ c.toList := fun c hc =>
    (Step.proper_of_users (Step.proper_of_texts_eq hb htexts) c (hperm.mem_iff.mp hc)).2
  refine ⟨_, by rw [hsite, hnames, hpath], ?_⟩
  rw [split_join hcs hdots, ← htexts]
  exact hperm

/-- **Keys are restored by paths exactly where umbrellas are apart.** Every key that is accepted has
a path of the same components; it is the key if the names were handed out from the top, and only then
unless a name is also that of an element on the way. -/
theorem path_restores_keys_iff_umbrellasApart {s : Schema} {n : Node} (h : s.Holds n) :
    ((∀ key t, n.parse key = .ok t → t.site.pathFrom n.site t.names = .ok key) ↔
      n.element.UmbrellasApart) ∧
    ((∀ key₁ key₂ t₁ t₂, n.parse key₁ = .ok t₁ → n.parse key₂ = .ok t₂ →
        t₁.site.pathFrom n.site t₁.names = t₂.site.pathFrom n.site t₂.names → key₁ = key₂) ↔
      n.element.UmbrellasApart) ∧
    (∀ key t, n.parse key = .ok t → ∃ path steps,
      t.site.pathFrom n.site t.names = .ok path ∧ (split '.' path).Perm (split '.' key) ∧
      Step.texts steps = split '.' key ∧ Reads n.element false steps t.element ∧
      (TopDown n.element.kind steps → path = key) ∧
      ((∀ l ∈ Step.links steps, l.name.text ∉ Step.users steps) → path = key →
        TopDown n.element.kind steps)) ∧
    (n.element.UmbrellasApart → ∀ above entry write,
      writeFor ⟨n, above⟩ entry = .ok write → write.1 = above ++ "." ++ entry.1) := by
  have hk := h.kind_eq
  have hrestore : n.element.UmbrellasApart → ∀ key t, n.parse key = .ok t →
      t.site.pathFrom n.site t.names = .ok key := fun ha _ _ => Node.pathFrom_of_parse hk ha
  refine ⟨⟨fun hall => ?_, hrestore⟩, ⟨fun hall => ?_, fun ha key₁ key₂ t₁ t₂ h₁ h₂ hp => ?_⟩,
    fun key t ht => ?_, fun ha above entry write hwrite => ?_⟩
  · by_contra ha
    obtain ⟨key₁, key₂, t, hne, h₁, h₂⟩ := Node.exists_keys_of_not_umbrellasApart ha
    exact hne (Except.ok.inj ((hall key₁ t h₁).symm.trans (hall key₂ t h₂)))
  · by_contra ha
    obtain ⟨key₁, key₂, t, hne, h₁, h₂⟩ := Node.exists_keys_of_not_umbrellasApart ha
    exact hne (hall key₁ key₂ t t h₁ h₂ rfl)
  · rw [hrestore ha key₁ t₁ h₁, hrestore ha key₂ t₂ h₂] at hp
    exact Except.ok.inj hp
  · obtain ⟨hb, steps, htexts, hreads, hsite, hnames⟩ := Node.parse_eq_ok_iff.mp ht
    have hu := Step.proper_of_texts_eq hb htexts
    have hne : steps ≠ [] := by
      rintro rfl
      exact split_ne_nil key htexts.symm
    obtain ⟨cs, -, hperm, hpath⟩ := Node.pathFrom_of_reads hk hreads
    have hcs : cs ≠ [] := by
      rintro rfl
      simpa [Step.texts, hne] using hperm.symm.eq_nil
    have hkey : join '.' (Step.texts steps) = key := by rw [htexts, join_split]
    rw [hsite, hnames]
    refine ⟨_, steps, hpath, ?_, htexts, hreads, fun ht => ?_, fun hd hp => ?_⟩
    · rw [split_join hcs fun c hcm => (Step.proper_of_users hu c (hperm.mem_iff.mp hcm)).2,
        ← htexts]
      exact hperm
    · have hp := Node.pathFrom_of_topDown hk hreads ht
      rw [hpath, hkey] at hp
      exact Except.ok.inj hp
    · refine Node.topDown_of_pathFrom hk hreads hne hu hd ?_
      rw [hpath, hp, hkey]
  · obtain ⟨t, o, path, text, ht, -, hpath, -, rfl⟩ := writeFor_eq_ok_iff.mp hwrite
    change t.site.pathFrom n.site t.names = .ok path at hpath
    rw [hrestore ha entry.1 t ht] at hpath
    rw [Except.ok.inj hpath]

/-- The name given to the lower umbrella is printed after the upper one. -/
theorem path_moves_name_of_nested_umbrella :
    nestedSchema.Holds nestedRoot ∧
      ¬ nestedRoot.element.UmbrellasApart ∧
      (nestedRoot.parse "a.u.x").toOption.map (fun t => t.site.pathFrom nestedRoot.site t.names) =
        some (.ok "u.a.x") := by
  have hpath : (nestedRoot.parse "a.u.x").toOption.map
      (fun t => t.site.pathFrom nestedRoot.site t.names) = some (.ok "u.a.x") := by
    rfl
  refine ⟨nestedSchema_holds, fun ha => ?_, hpath⟩
  cases hp : nestedRoot.parse "a.u.x" with
  | error f => rw [hp] at hpath; cases hpath
  | ok t =>
    rw [hp] at hpath
    have hkey := (path_restores_keys_iff_umbrellasApart nestedSchema_holds).1.mpr ha "a.u.x" t hp
    have h := (Option.some.inj hpath).symm.trans hkey
    exact absurd (Except.ok.inj h) (by decide)

end ScanJobs.Schema
