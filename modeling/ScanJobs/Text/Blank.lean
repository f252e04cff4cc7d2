/-! # Blank characters

What counts as blank in names, keys and counter names, and what may pad a numeral. `strip` cuts the
blank characters off both ends of a text; a text is blank if nothing is left
(`isBlank_iff_strip_eq`), and what is left is cut no further (`strip_strip`).
-/

namespace ScanJobs.Text

/-- The white space characters of Unicode and the four information separators U+001C to U+001F. -/
def isBlankChar (c : Char) : Bool :=
  let n := c.toNat
  (9 ≤ n && n ≤ 13) || (28 ≤ n && n ≤ 32) || n == 0x85 || n == 0xA0 || n == 0x1680 ||
    (0x2000 ≤ n && n ≤ 0x200A) || n == 0x2028 || n == 0x2029 || n == 0x202F || n == 0x205F ||
    n == 0x3000

/-- White space alone, which may stand around a numeral: the information separators may not. -/
def isPadding (c : Char) : Bool :=
  isBlankChar c && !(28 ≤ c.toNat && c.toNat ≤ 31)

/-- White space of ASCII, which may stand around a numeral given as bytes. -/
def isAsciiPadding (c : Char) : Bool :=
  (9 ≤ c.toNat && c.toNat ≤ 13) || c == ' '

/-- Cuts the characters of a class off both ends. -/
def trimList (p : Char → Bool) (cs : List Char) : List Char :=
  ((cs.dropWhile p).reverse.dropWhile p).reverse

/-- Cuts the characters of a class off both ends of a text. -/
def trim (p : Char → Bool) (s : String) : String :=
  String.ofList (trimList p s.toList)

/-- Cuts the blank characters off both ends of a text. -/
def strip (s : String) : String :=
  trim isBlankChar s

/-- Every character is blank. -/
def isBlank (s : String) : Bool :=
  s.toList.all isBlankChar

theorem dropWhile_eq_nil_iff {p : Char → Bool} {cs : List Char} :
    cs.dropWhile p = [] ↔ cs.all p = true := by
  induction cs with
  | nil => simp
  | cons c cs ih => by_cases h : p c <;> simp [h, ih]

theorem all_dropWhile {p : Char → Bool} {cs : List Char} :
    (cs.dropWhile p).all p = cs.all p := by
  induction cs with
  | nil => rfl
  | cons c cs ih => by_cases h : p c <;> simp [h, ih]

theorem trimList_eq_nil_iff {p : Char → Bool} {cs : List Char} :
    trimList p cs = [] ↔ cs.all p = true := by
  rw [trimList, List.reverse_eq_nil_iff, dropWhile_eq_nil_iff, List.all_reverse, all_dropWhile]

theorem isBlank_iff_strip_eq {s : String} : isBlank s = true ↔ strip s = "" := by
  rw [isBlank, ← trimList_eq_nil_iff, strip, trim, ← String.toList_inj, String.toList_ofList]
  simp

theorem trimList_sublist {p : Char → Bool} {cs : List Char} : (trimList p cs).Sublist cs := by
  have h := (List.dropWhile_sublist (l := (cs.dropWhile p).reverse) p).reverse
  rw [List.reverse_reverse] at h
  exact h.trans (List.dropWhile_sublist p)

theorem mem_of_mem_strip {c : Char} {s : String} (h : c ∈ (strip s).toList) : c ∈ s.toList := by
  rw [strip, trim, String.toList_ofList] at h
  exact trimList_sublist.subset h

theorem dropWhile_eq_self_iff {p : Char → Bool} {cs : List Char} :
    cs.dropWhile p = cs ↔ ∀ c ∈ cs.head?, p c = false := by
  cases cs with
  | nil => simp
  | cons c cs =>
    by_cases h : p c
    · simp only [List.dropWhile_cons, h, if_true, List.head?_cons, Option.mem_def,
        Option.some.injEq, forall_eq', Bool.true_eq_false, iff_false]
      intro e
      have := congrArg List.length e
      have hle := (List.dropWhile_sublist (l := cs) p).length_le
      simp at this
      omega
    · simp [h]

theorem head?_dropWhile {p : Char → Bool} {cs : List Char} :
    ∀ c ∈ (cs.dropWhile p).head?, p c = false := by
  induction cs with
  | nil => simp
  | cons c cs ih =>
    by_cases h : p c
    · simpa [h] using ih
    · simp [h]

/-- The end of a trimmed list is not in the class, and neither is its start. -/
theorem dropWhile_trimList {p : Char → Bool} {cs : List Char} :
    (trimList p cs).dropWhile p = trimList p cs := by
  rw [dropWhile_eq_self_iff]
  intro c hc
  obtain ⟨rest, hrest⟩ : trimList p cs <+: cs.dropWhile p := by
    have h := List.dropWhile_suffix (l := (cs.dropWhile p).reverse) p
    simpa [trimList] using List.reverse_prefix.2 h
  refine head?_dropWhile c (?_ : (cs.dropWhile p).head? = some c)
  rw [← hrest, List.head?_append]
  simp [Option.mem_def.1 hc]

theorem trimList_trimList {p : Char → Bool} {cs : List Char} :
    trimList p (trimList p cs) = trimList p cs := by
  rw [trimList, dropWhile_trimList, trimList, List.reverse_reverse,
    dropWhile_eq_self_iff.2 head?_dropWhile]

theorem strip_strip {s : String} : strip (strip s) = strip s := by
  simp only [strip, trim, String.toList_ofList, trimList_trimList]

theorem isBlank_strip {s : String} : isBlank (strip s) = isBlank s := by
  rw [Bool.eq_iff_iff, isBlank_iff_strip_eq, isBlank_iff_strip_eq, strip_strip]

end ScanJobs.Text
