import ObjectLayout.Proofs.TypeGrammar

/-!
# Types and their texts

The text of a type is read back as the type, unless a class in it has a name that cannot be read as
the name of a class, or an array has a length that no array can have (`parse_text_iff`). Types that
were read are never like that, so reading, writing and reading again changes nothing. By induction
on the type its text is one line, begins and ends with no blank, and derives the type; the induction
through an array rests on the digits of a length, which hold no semicolon.
-/

set_option autoImplicit false

namespace ObjectLayout.AttributeType

open Text (IsTrimmed IsBare trim isBlank)

/-- The length of every array is a machine word. -/
def HasWordLengths : AttributeType → Prop
  | .pointer target => target.HasWordLengths
  | .array element length => length < addressSpace ∧ element.HasWordLengths
  | .primitive _ | .object | .reference _ | .embedded _ => True

/-- Every class goes by a dotted identifier, every array has an element, and no class that is stored
in place goes by the name of another type. -/
def IsReadable : AttributeType → Prop
  | .pointer target => target.IsReadable
  | .array element length => 1 ≤ length ∧ element.IsReadable
  | .reference cls => cls.IsDotted
  | .embedded cls => cls.IsDotted ∧ cls.text ≠ "object" ∧
      ∀ scalar : PrimitiveType, cls.text ≠ scalar.name
  | .primitive _ | .object => True

/-- What derives from a text has lengths that are words and can be read. -/
theorem Derives.isReadable {cs : List Char} {type : AttributeType} (h : Derives cs type) :
    type.HasWordLengths ∧ type.IsReadable := by
  induction h with
  | pointer _ _ ih => exact ih
  | reference _ hname =>
    exact ⟨trivial, by simpa [IsReadable, ClassId.IsDotted] using isDotted_iff.2 hname⟩
  | array _ _ _ _ _ hpos hword ih => exact ⟨⟨hword, ih.1⟩, hpos, ih.2⟩
  | object => exact ⟨trivial, trivial⟩
  | primitive => exact ⟨trivial, trivial⟩
  | embedded hname hobject hscalar =>
    refine ⟨trivial, by simpa [ClassId.IsDotted] using isDotted_iff.2 hname, ?_, fun scalar => ?_⟩
    · exact fun h => hobject (by simpa using congrArg String.toList h)
    · exact fun h => hscalar scalar (by simpa using congrArg String.toList h)

/-! ## The text of a type -/

/-- A text on one line that neither begins nor ends with a blank. -/
structure IsLine (cs : List Char) : Prop extends IsBare cs where
  line : '\n' ∉ cs

/-- Characters that are no blanks are a line. -/
theorem isLine_of_isBlank {cs : List Char} (h : ∀ c ∈ cs, isBlank c = false) : IsLine cs where
  first c hc := h c (List.mem_of_head? hc)
  last c hc := h c (List.mem_of_getLast? hc)
  line hmem := absurd (h _ hmem) (by decide)

/-- A text that is checked to have no blanks is a line. -/
theorem isLine_of_all {cs : List Char} (h : cs.all (fun c => !isBlank c) = true) : IsLine cs :=
  isLine_of_isBlank fun c hc => by simpa using List.all_eq_true.1 h c hc

/-- Two lines are a line, whatever stands between them on it. -/
theorem IsLine.append {start rest : List Char} (hstart : IsLine start) (hrest : IsLine rest)
    (hne : start ≠ []) (hne' : rest ≠ []) (between : List Char) (hbetween : '\n' ∉ between) :
    IsLine (start ++ between ++ rest) where
  first c hc := by
    rw [List.append_assoc, List.head?_append, Option.or_of_isSome (by simpa using hne)] at hc
    exact hstart.first c hc
  last c hc := by
    rw [List.getLast?_append, Option.or_of_isSome (by simpa using hne')] at hc
    exact hrest.last c hc
  line := by
    simp [hstart.line, hrest.line, hbetween]

/-- The text of an array has its element and its length in brackets. -/
theorem text_array (element : AttributeType) (length : Nat) :
    (array element length).text.toList =
      '[' :: (element.text.toList ++ ';' :: ([' '] ++ Nat.toDigits 10 length)) ++ [']'] := by
  simp [text]

/-- The text of a type that can be read is one line, and derives the type. -/
theorem IsReadable.derives_text {type : AttributeType} (hwords : type.HasWordLengths)
    (h : type.IsReadable) : IsLine type.text.toList ∧ Derives type.text.toList type := by
  induction type with
  | primitive scalar =>
    exact ⟨isLine_of_all (by cases scalar <;> decide), .primitive scalar⟩
  | object => exact ⟨isLine_of_all (by decide), .object⟩
  | pointer target ih =>
    obtain ⟨hline, hderives⟩ := ih hwords h
    have htext : (pointer target).text.toList = '*' :: target.text.toList := by simp [text]
    rw [htext]
    refine ⟨?_, .pointer hline.isTrimmed hderives⟩
    have hstar : IsLine ['*'] := isLine_of_all (by decide)
    simpa using hstar.append hline (by simp) hderives.ne_nil [] (by simp)
  | reference cls =>
    have hname := isDotted_iff.1 h
    have hline := isLine_of_isBlank fun c => hname.isBlank_eq_false
    have htext : (reference cls).text.toList = 'r' :: 'e' :: 'f' :: ' ' :: cls.text.toList := by
      simp [text]
    have hderives := Derives.reference hline.isTrimmed hname
    rw [String.ofList_toList] at hderives
    rw [htext]
    refine ⟨?_, hderives⟩
    have href : IsLine ['r', 'e', 'f'] := isLine_of_all (by decide)
    simpa using href.append hline (by simp) hname.ne_nil [' '] (by decide)
  | embedded cls =>
    obtain ⟨hdotted, hobject, hscalar⟩ := h
    have hname := isDotted_iff.1 hdotted
    have hderives : Derives cls.text.toList (.embedded ⟨String.ofList cls.text.toList⟩) :=
      .embedded hname (fun heq => hobject (String.toList_injective heq))
        fun scalar heq => hscalar scalar (String.toList_injective heq)
    rw [String.ofList_toList] at hderives
    exact ⟨isLine_of_isBlank fun c => hname.isBlank_eq_false, hderives⟩
  | array element length ih =>
    -- The digits are read back as the length, whatever the element looks like.
    obtain ⟨hline, hderives⟩ := ih hwords.2 h.2
    have hdigits : ∀ c ∈ Nat.toDigits 10 length, c.isDigit := fun c =>
      Nat.isDigit_of_mem_toDigits (by decide) (by decide)
    have hvalue : Nat.ofDigitChars 10 (Nat.toDigits 10 length) 0 = length :=
      Nat.ofDigitChars_ten_toDigits
    have harray : Derives (array element length).text.toList
        (.array element (Nat.ofDigitChars 10 (Nat.toDigits 10 length) 0)) := by
      have hspace : ∀ c ∈ [' '], isBlank c := List.forall_mem_singleton.2 (by decide)
      rw [text_array]
      refine .array hline.line hline.isTrimmed hderives hspace hdigits ?_ ?_
      · rw [hvalue]
        exact h.1
      · rw [hvalue]
        exact hwords.1
    rw [hvalue] at harray
    refine ⟨?_, harray⟩
    rw [text_array]
    have hopen : IsLine ['['] := isLine_of_all (by decide)
    have hclose : IsLine [']'] := isLine_of_all (by decide)
    refine hopen.append hclose (by simp) (by simp) _ ?_
    have hnumber : '\n' ∉ Nat.toDigits 10 length := fun hmem => absurd (hdigits _ hmem) (by decide)
    simp [hline.line, hnumber]

/-- The text of a type is read back as the type exactly when the type can be read. -/
theorem parse_text_iff {type : AttributeType} :
    parse type.text = .ok type ↔ type.HasWordLengths ∧ type.IsReadable := by
  rw [parse_eq_ok_iff]
  constructor
  · rintro ⟨_, _, h⟩
    exact h.isReadable
  · rintro ⟨hwords, h⟩
    obtain ⟨hline, hderives⟩ := h.derives_text hwords
    exact ⟨_, hline.isTrimmed, hderives⟩

/-- A type that is read has lengths that are words and names that can be read. -/
theorem isReadable_of_parse {text : String} {type : AttributeType} (h : parse text = .ok type) :
    type.HasWordLengths ∧ type.IsReadable := by
  obtain ⟨_, _, hderives⟩ := parse_eq_ok_iff.1 h
  exact hderives.isReadable

/-- Types whose lengths are words go through their texts and back as far as they can be read. What
was read can be read again, as the same type, and two types that were read are the same when their
texts are. -/
theorem text_roundTrips :
    (∀ type : AttributeType, type.HasWordLengths →
      (parse type.text = .ok type ↔ type.IsReadable)) ∧
    (∀ text type, parse text = .ok type → type.HasWordLengths ∧ type.IsReadable) ∧
    (∀ text type, parse text = .ok type → parse type.text = .ok type) ∧
    ∀ text text' type type', parse text = .ok type → parse text' = .ok type' →
      (type = type' ↔ type.text = type'.text) := by
  refine ⟨fun type hwords => ?_, fun text type => isReadable_of_parse,
    fun text type h => parse_text_iff.2 (isReadable_of_parse h), ?_⟩
  · rw [parse_text_iff, and_iff_right hwords]
  · intro text text' type type' h h'
    refine ⟨congrArg AttributeType.text, fun heq => ?_⟩
    have hagain := parse_text_iff.2 (isReadable_of_parse h)
    rw [heq, parse_text_iff.2 (isReadable_of_parse h')] at hagain
    exact (Except.ok.inj hagain).symm

end ObjectLayout.AttributeType
