import Mathlib.Data.List.TakeWhile
import ObjectLayout.Class.Id
import ObjectLayout.Text.Blank
import ObjectLayout.Text.DecimalDigit

/-!
# Blanks, names and numbers

The words that the text of a type is made of, said without the functions that take them from a text:
`IsTrimmed` is a text without the blanks around it, `IsDottedName` a name, and a number is a list of
ASCII digits. Each function is compared with its word: `trim_eq_iff`, `isDotted_iff` and
`decimalValue?_eq_some_iff`.
-/

set_option autoImplicit false

namespace ObjectLayout

namespace Text

/-! ## Blanks -/

/-- A text that neither begins nor ends with a blank. -/
structure IsBare (cs : List Char) : Prop where
  first : ∀ c, cs.head? = some c → isBlank c = false
  last : ∀ c, cs.getLast? = some c → isBlank c = false

/-- The text is `core` with blanks around it, and `core` neither begins nor ends with one. -/
structure IsTrimmed (core cs : List Char) : Prop extends IsBare core where
  exists_eq : ∃ before after, cs = before ++ core ++ after ∧ (∀ c ∈ before, isBlank c) ∧
    ∀ c ∈ after, isBlank c

variable {cs core before after : List Char}

/-- A text without blanks at its ends is trimmed already. -/
theorem IsBare.isTrimmed (h : IsBare cs) : IsTrimmed cs cs where
  toIsBare := h
  exists_eq := ⟨[], [], by simp, by simp, by simp⟩

/-- Dropping blanks from the front leaves what stands behind them. -/
theorem dropWhile_isBlank_append (hbefore : ∀ c ∈ before, isBlank c)
    (hfirst : ∀ c, core.head? = some c → isBlank c = false) (hafter : ∀ c ∈ after, isBlank c) :
    (before ++ core ++ after).dropWhile isBlank = if core = [] then [] else core ++ after := by
  rw [List.append_assoc, List.dropWhile_append_of_pos hbefore]
  cases core with
  | nil => simpa [List.dropWhile_eq_nil_iff] using hafter
  | cons c rest => simp [hfirst c rfl]

/-- A trimmed text is what trimming gives. -/
theorem IsTrimmed.trim_eq (h : IsTrimmed core cs) : trim cs = core := by
  obtain ⟨before, after, rfl, hbefore, hafter⟩ := h.exists_eq
  unfold trim
  rw [dropWhile_isBlank_append hbefore h.first hafter]
  by_cases hcore : core = []
  · simp [hcore]
  · -- From behind it is the same, and what stood in front is gone.
    have hfirst : ∀ c, core.reverse.head? = some c → isBlank c = false := by
      simpa using h.last
    have hback : (after.reverse ++ core.reverse ++ []).dropWhile isBlank =
        if core.reverse = [] then [] else core.reverse ++ [] :=
      dropWhile_isBlank_append (by simpa using hafter) hfirst (by simp)
    rw [if_neg hcore, List.reverse_append]
    simpa [hcore] using congrArg List.reverse hback

/-- What is left without blanks in front begins with none. -/
theorem first_dropWhile_isBlank (cs : List Char) (c : Char)
    (h : (cs.dropWhile isBlank).head? = some c) : isBlank c = false := by
  have hnot := List.head?_dropWhile_not isBlank cs
  rw [h] at hnot
  simpa using hnot

/-- Trimming gives the trimmed text. -/
theorem isTrimmed_trim (cs : List Char) : IsTrimmed (trim cs) cs where
  first := by
    intro c hc
    -- What is left of the text is a beginning of what is left after the blanks in front.
    have hpre : trim cs <+: cs.dropWhile isBlank := by
      simpa [trim] using List.reverse_prefix.2
        (List.dropWhile_suffix isBlank (l := (cs.dropWhile isBlank).reverse))
    obtain ⟨after, hafter⟩ := hpre
    apply first_dropWhile_isBlank cs
    rw [← hafter, List.head?_append, hc, Option.some_or]
  last := by
    intro c hc
    apply first_dropWhile_isBlank (cs.dropWhile isBlank).reverse
    simpa [trim] using hc
  exists_eq := by
    refine ⟨cs.takeWhile isBlank, ((cs.dropWhile isBlank).reverse.takeWhile isBlank).reverse,
      ?_, fun c => List.mem_takeWhile_imp, fun c hc => ?_⟩
    · rw [trim, List.append_assoc, ← List.reverse_append, List.takeWhile_append_dropWhile,
        List.reverse_reverse, List.takeWhile_append_dropWhile]
    · exact List.mem_takeWhile_imp (List.mem_reverse.1 hc)

/-- Trimming a text leaves what stands between the blanks at its ends. -/
theorem trim_eq_iff : trim cs = core ↔ IsTrimmed core cs :=
  ⟨fun h => h ▸ isTrimmed_trim cs, IsTrimmed.trim_eq⟩

/-! ## Numbers -/

/-- The value of an ASCII digit is its distance from zero. -/
theorem digitValue?_eq_some_iff {c : Char} {n : Nat} :
    digitValue? c = some n ↔ c.isDigit ∧ c.toNat - '0'.toNat = n := by
  have hdigit : ('0' ≤ c ∧ c ≤ '9') ↔ c.isDigit := by
    rw [Char.isDigit_iff_toNat]
    rfl
  unfold digitValue?
  by_cases h : c.isDigit
  · rw [if_pos (hdigit.2 h), Option.some.injEq, and_iff_right h]
  · rw [if_neg fun hrange => h (hdigit.1 hrange)]
    simp [h]

/-- A number is read from ASCII digits alone, and is the number that they write. -/
theorem decimalValue?_eq_some_iff {digits : List Char} {n : Nat} :
    decimalValue? digits = some n ↔
      (∀ c ∈ digits, c.isDigit) ∧ Nat.ofDigitChars 10 digits 0 = n := by
  have key : ∀ m, digits.foldlM (fun n c => (digitValue? c).map (10 * n + ·)) m = some n ↔
      (∀ c ∈ digits, c.isDigit) ∧ Nat.ofDigitChars 10 digits m = n := by
    induction digits with
    | nil => simp
    | cons c rest ih =>
      intro m
      rw [List.foldlM_cons, Nat.ofDigitChars_cons, List.forall_mem_cons]
      cases hc : digitValue? c with
      | none =>
        have hnot : ¬ c.isDigit := fun h => by
          rw [digitValue?_eq_some_iff.2 ⟨h, rfl⟩] at hc
          cases hc
        simp [hnot]
      | some v =>
        obtain ⟨hdigit, rfl⟩ := digitValue?_eq_some_iff.1 hc
        simpa [hdigit] using ih (10 * m + (c.toNat - '0'.toNat))
  exact key 0

/-- No decimal digit is a semicolon. -/
theorem decimalDigit_apart : ∀ r ∈ decimalDigitRanges, 0x3b < r.1 ∨ r.2 < 0x3b := by decide

/-- No decimal digit is a blank. -/
theorem decimalDigit_apart_blank :
    ∀ r ∈ decimalDigitRanges, ∀ b ∈ blankRanges, b.2 < r.1 ∨ r.2 < b.1 := by decide

/-- A character is a decimal digit exactly if it lies in one of the ranges. -/
theorem isDecimalDigit_iff {c : Char} : isDecimalDigit c ↔
    ∃ r ∈ decimalDigitRanges, r.1 ≤ c.toNat ∧ c.toNat ≤ r.2 := by
  simp [isDecimalDigit]

/-- Every ASCII digit is a decimal digit. -/
theorem isDecimalDigit_of_isDigit {c : Char} (h : c.isDigit) : isDecimalDigit c :=
  isDecimalDigit_iff.2 ⟨(0x30, 0x39), by decide, Char.isDigit_iff_toNat.1 h⟩

/-- No decimal digit of any script is a blank. -/
theorem isBlank_of_isDecimalDigit {c : Char} (h : isDecimalDigit c) : isBlank c = false := by
  obtain ⟨r, hr, hlow, hhigh⟩ := isDecimalDigit_iff.1 h
  apply Bool.eq_false_iff.2
  intro hblank
  obtain ⟨b, hb, hrange⟩ := List.any_eq_true.1 hblank
  simp only [Bool.and_eq_true, decide_eq_true_eq] at hrange
  have := decimalDigit_apart_blank r hr b hb
  omega

/-- A decimal digit is no semicolon. -/
theorem ne_semicolon_of_isDecimalDigit {c : Char} (h : isDecimalDigit c) : c ≠ ';' := by
  rintro rfl
  obtain ⟨r, hr, hlow, hhigh⟩ := isDecimalDigit_iff.1 h
  have := decimalDigit_apart r hr
  simp only [Char.reduceToNat] at hlow hhigh
  omega

end Text

/-! ## Names -/

/-- The characters that a name can begin with: `[A-Za-z_]`. -/
def IsNameStart (c : Char) : Prop :=
  ('A' ≤ c ∧ c ≤ 'Z') ∨ ('a' ≤ c ∧ c ≤ 'z') ∨ c = '_'

/-- A text that matches `[A-Za-z_][A-Za-z0-9_]*`. -/
inductive IsName : List Char → Prop where
  | intro {first : Char} {rest : List Char} (hfirst : IsNameStart first)
      (hrest : ∀ c ∈ rest, IsNameStart c ∨ ('0' ≤ c ∧ c ≤ '9')) : IsName (first :: rest)

/-- Names joined by dots, at least one. -/
inductive IsDottedName : List Char → Prop where
  | name {cs : List Char} (h : IsName cs) : IsDottedName cs
  | qualified {scope rest : List Char} (hscope : IsName scope) (hrest : IsDottedName rest) :
      IsDottedName (scope ++ '.' :: rest)

/-- The characters with which a name may begin. -/
theorem isIdentifierStart_iff {c : Char} : isIdentifierStart c ↔ IsNameStart c := by
  have hupper : c.isUpper ↔ 'A' ≤ c ∧ c ≤ 'Z' := decide_eq_true_iff
  have hlower : c.isLower ↔ 'a' ≤ c ∧ c ≤ 'z' :=
    Bool.and_eq_true_iff.trans (and_congr decide_eq_true_iff decide_eq_true_iff)
  have halpha : c.isAlpha = (c.isUpper || c.isLower) := rfl
  unfold isIdentifierStart IsNameStart
  rw [halpha, Bool.or_eq_true, Bool.or_eq_true, hupper, hlower, beq_iff_eq, or_assoc]

/-- The characters with which a name may go on. -/
theorem isIdentifierRest_iff {c : Char} :
    isIdentifierRest c ↔ IsNameStart c ∨ ('0' ≤ c ∧ c ≤ '9') := by
  rw [← isIdentifierStart_iff]
  simp only [isIdentifierRest, isIdentifierStart, Char.isAlphanum, Char.isDigit, Bool.or_eq_true,
    Bool.and_eq_true, decide_eq_true_eq, ge_iff_le, Char.le_def]
  exact or_right_comm

/-- The check of identifiers accepts the names. -/
theorem isIdentifier_iff {cs : List Char} : isIdentifier cs ↔ IsName cs := by
  cases cs with
  | nil => exact ⟨fun h => (by cases h), fun h => (by cases h)⟩
  | cons first rest =>
    simp only [isIdentifier, Bool.and_eq_true, List.all_eq_true, isIdentifierStart_iff,
      isIdentifierRest_iff]
    exact ⟨fun h => .intro h.1 h.2, fun h => (by cases h with | intro h h' => exact ⟨h, h'⟩)⟩

/-- The characters of a name. -/
theorem IsName.mem {cs : List Char} (h : IsName cs) {c : Char} (hc : c ∈ cs) :
    IsNameStart c ∨ ('0' ≤ c ∧ c ≤ '9') := by
  cases h with
  | intro hfirst hrest =>
    rcases List.mem_cons.1 hc with rfl | hmem
    · exact .inl hfirst
    · exact hrest c hmem

/-- A name has no dots. -/
theorem IsName.dot_not_mem {cs : List Char} (h : IsName cs) : '.' ∉ cs := by
  intro hmem
  exact absurd (h.mem hmem) (by unfold IsNameStart; decide)

/-- Names with dots between them are a dotted name. -/
theorem isDottedName_intercalate {names : List (List Char)} (hnames : ∀ cs ∈ names, IsName cs)
    (hne : names ≠ []) : IsDottedName (['.'].intercalate names) := by
  induction names with
  | nil => exact absurd rfl hne
  | cons first rest ih =>
    obtain ⟨hfirst, hrest⟩ := List.forall_mem_cons.1 hnames
    cases rest with
    | nil => simpa using IsDottedName.name hfirst
    | cons second others =>
      rw [List.intercalate_cons_cons, List.append_assoc]
      exact .qualified hfirst (ih hrest (List.cons_ne_nil _ _))

/-- What is accepted as a dotted identifier is what is made of names and dots. -/
theorem isDotted_iff {cs : List Char} : isDotted cs ↔ IsDottedName cs := by
  unfold isDotted
  rw [List.all_eq_true]
  constructor
  · intro h
    have hdotted := isDottedName_intercalate (fun name hname => isIdentifier_iff.1 (h name hname))
      (List.splitOn_ne_nil '.' cs)
    rwa [List.intercalate_splitOn] at hdotted
  · intro h
    induction h with
    | name h =>
      rw [List.splitOn_eq_singleton h.dot_not_mem]
      exact List.forall_mem_singleton.2 (isIdentifier_iff.2 h)
    | qualified hscope _ ih =>
      rw [List.splitOn_append_cons_self_of_not_mem hscope.dot_not_mem]
      exact List.forall_mem_cons.2 ⟨isIdentifier_iff.2 hscope, ih⟩

/-- The characters of a dotted name. -/
theorem IsDottedName.mem {cs : List Char} (h : IsDottedName cs) {c : Char} (hc : c ∈ cs) :
    IsNameStart c ∨ ('0' ≤ c ∧ c ≤ '9') ∨ c = '.' := by
  induction h with
  | name h => exact (h.mem hc).imp_right .inl
  | qualified hscope _ ih =>
    rcases List.mem_append.1 hc with hmem | hmem
    · exact (hscope.mem hmem).imp_right .inl
    · rcases List.mem_cons.1 hmem with rfl | hmem
      · exact .inr (.inr rfl)
      · exact ih hmem

/-- No character of a dotted name is a blank. -/
theorem IsDottedName.isBlank_eq_false {cs : List Char} (h : IsDottedName cs) {c : Char}
    (hc : c ∈ cs) : Text.isBlank c = false := by
  have hrange : '.'.toNat ≤ c.toNat ∧ c.toNat ≤ 'z'.toNat := by
    have hchar := h.mem hc
    simp only [IsNameStart, Char.le_def, UInt32.le_iff_toNat_le, Char.toNat_val] at hchar
    rcases hchar with (hupper | hlower | rfl) | hdigit | rfl
    all_goals simp only [Char.reduceToNat] at *; omega
  apply Bool.eq_false_iff.2
  intro hblank
  obtain ⟨b, hb, hinside⟩ := List.any_eq_true.1 hblank
  have hapart : ∀ b ∈ Text.blankRanges, b.2 < '.'.toNat ∨ 'z'.toNat < b.1 := by decide
  have hb := hapart b hb
  simp only [Bool.and_eq_true, decide_eq_true_eq] at hinside
  omega

/-- A dotted name is not empty. -/
theorem IsDottedName.ne_nil {cs : List Char} (h : IsDottedName cs) : cs ≠ [] := by
  cases h with
  | name h => cases h with | intro => exact List.cons_ne_nil _ _
  | qualified => simp

end ObjectLayout
