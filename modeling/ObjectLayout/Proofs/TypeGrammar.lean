import ObjectLayout.AttributeType.Parser
import ObjectLayout.Proofs.Action
import ObjectLayout.Proofs.Lexemes

/-!
# The grammar of attribute types

`Derives` says rule by rule which type a text without blanks at its ends stands for; the rules have
no order. A text is read as a type exactly when it derives the type (`parse_eq_ok_iff`), and every
other text is refused with a fault of its own. Both directions follow the layers of a text: the
outermost layer is what the first characters and the last semicolon make it
(`layer_eq_arrayOf_iff`), and what stands inside is shorter.
-/

set_option autoImplicit false

namespace ObjectLayout.AttributeType

open LayoutM (exists_eq_ok_of_map)
open Text (IsTrimmed IsBare trim isBlank isDecimalDigit trim_eq_iff isTrimmed_trim)

/-- The text, without blanks at its ends, stands for the type. -/
inductive Derives : List Char → AttributeType → Prop where
  /-- An asterisk and what the pointer points to. -/
  | pointer {target core : List Char} {type : AttributeType} (htrim : IsTrimmed core target)
      (h : Derives core type) : Derives ('*' :: target) (.pointer type)
  /-- The word `ref`, a space, and a dotted name. -/
  | reference {rest name : List Char} (htrim : IsTrimmed name rest) (h : IsDottedName name) :
      Derives ('r' :: 'e' :: 'f' :: ' ' :: rest) (.reference ⟨String.ofList name⟩)
  /-- In brackets: the element on one line, a semicolon, blanks, and the length in ASCII digits,
  which is a word and not zero. No blank and no digit is a semicolon, so it is the last one. -/
  | array {element core blanks digits : List Char} {type : AttributeType}
      (hline : '\n' ∉ element) (htrim : IsTrimmed core element) (h : Derives core type)
      (hblanks : ∀ c ∈ blanks, isBlank c) (hdigits : ∀ c ∈ digits, c.isDigit)
      (hpos : 1 ≤ Nat.ofDigitChars 10 digits 0)
      (hword : Nat.ofDigitChars 10 digits 0 < addressSpace) :
      Derives ('[' :: (element ++ ';' :: (blanks ++ digits)) ++ [']'])
        (.array type (Nat.ofDigitChars 10 digits 0))
  | object : Derives "object".toList .object
  | primitive (scalar : PrimitiveType) : Derives scalar.name.toList (.primitive scalar)
  /-- Any other dotted name is a class. -/
  | embedded {name : List Char} (h : IsDottedName name) (hobject : name ≠ "object".toList)
      (hscalar : ∀ scalar : PrimitiveType, name ≠ scalar.name.toList) :
      Derives name (.embedded ⟨String.ofList name⟩)

/-! ## Layers -/

/-- A text is divided at its last semicolon. -/
theorem splitLastSemicolon?_eq_some_iff {cs before after : List Char} :
    splitLastSemicolon? cs = some (before, after) ↔ cs = before ++ ';' :: after ∧ ';' ∉ after := by
  have hparts : cs.reverse.takeWhile (· != ';') ++ cs.reverse.dropWhile (· != ';') = cs.reverse :=
    List.takeWhile_append_dropWhile
  have htaken : ';' ∉ cs.reverse.takeWhile (· != ';') := fun hmem =>
    absurd (List.mem_takeWhile_imp hmem) (by decide)
  unfold splitLastSemicolon?
  constructor
  · intro h
    split at h
    · cases h
    · next c rest hdrop =>
      have hc := List.head?_dropWhile_not (· != ';') cs.reverse
      rw [hdrop] at hc hparts
      obtain rfl : c = ';' := by simpa using hc
      cases h
      refine ⟨?_, by simpa using htaken⟩
      have hcs := congrArg List.reverse hparts
      rw [List.reverse_reverse, List.reverse_append, List.reverse_cons, List.append_assoc] at hcs
      exact hcs.symm
  · rintro ⟨rfl, hafter⟩
    have hall : ∀ c ∈ after.reverse, (c != ';') = true := by
      intro c hc
      rw [bne_iff_ne]
      rintro rfl
      exact hafter (List.mem_reverse.1 hc)
    have hreverse : (before ++ ';' :: after).reverse = after.reverse ++ ';' :: before.reverse := by
      simp
    rw [hreverse, List.dropWhile_append_of_pos hall, List.takeWhile_append_of_pos hall]
    simp

/-- What stands in brackets is what stands between the first character and the last one. -/
theorem bracketed?_eq_some_iff {cs inner : List Char} :
    bracketed? cs = some inner ↔ cs = '[' :: inner ++ [']'] := by
  unfold bracketed?
  split
  · next rest =>
    by_cases hlast : rest.getLast? = some ']'
    · obtain ⟨front, rfl⟩ := List.getLast?_eq_some_iff.1 hlast
      simp [eq_comm]
    · rw [if_neg hlast]
      refine ⟨(fun h => nomatch h), fun h => ?_⟩
      have hrest : rest = inner ++ [']'] := (List.cons.inj h).2
      rw [hrest, List.getLast?_concat] at hlast
      exact absurd rfl hlast
  · next hcs => exact ⟨(fun h => nomatch h), fun h => absurd h (hcs _)⟩

/-- Dropping blanks in front of digits leaves the digits. -/
theorem dropWhile_isBlank_digits {blanks digits : List Char} (hblanks : ∀ c ∈ blanks, isBlank c)
    (hdigits : ∀ c ∈ digits, isDecimalDigit c) :
    (blanks ++ digits).dropWhile isBlank = digits := by
  rw [List.dropWhile_append_of_pos hblanks]
  cases digits with
  | nil => rfl
  | cons c rest =>
    rw [List.dropWhile_cons_of_neg]
    simp [Text.isBlank_of_isDecimalDigit (hdigits c List.mem_cons_self)]

/-- Blanks and digits hold no semicolon. -/
theorem semicolon_not_mem {blanks digits : List Char} (hblanks : ∀ c ∈ blanks, isBlank c)
    (hdigits : ∀ c ∈ digits, isDecimalDigit c) : ';' ∉ blanks ++ digits := by
  intro hmem
  rcases List.mem_append.1 hmem with hblank | hdigit
  · exact absurd (hblanks _ hblank) (by decide)
  · exact Text.ne_semicolon_of_isDecimalDigit (hdigits _ hdigit) rfl

/-- The element and the digits of an array text are divided by the last semicolon. -/
theorem arrayParts?_eq_some_iff {inner element digits : List Char} :
    arrayParts? inner = some (element, digits) ↔ ∃ blanks,
      inner = element ++ ';' :: (blanks ++ digits) ∧ (∀ c ∈ blanks, isBlank c) ∧ element ≠ [] ∧
        '\n' ∉ element ∧ digits ≠ [] ∧ ∀ c ∈ digits, isDecimalDigit c := by
  unfold arrayParts?
  constructor
  · intro h
    split at h
    · cases h
    · next element' rest hsplit =>
      obtain ⟨hinner, -⟩ := splitLastSemicolon?_eq_some_iff.1 hsplit
      dsimp only at h
      split at h
      · next hparts =>
        cases h
        refine ⟨rest.takeWhile isBlank, ?_, fun c => List.mem_takeWhile_imp, ?_⟩
        · rw [List.takeWhile_append_dropWhile]
          exact hinner
        · simpa using hparts
      · cases h
  · rintro ⟨blanks, rfl, hblanks, helement, hline, hne, hdigits⟩
    rw [splitLastSemicolon?_eq_some_iff.2 ⟨rfl, semicolon_not_mem hblanks hdigits⟩]
    dsimp only
    rw [dropWhile_isBlank_digits hblanks hdigits, if_pos]
    exact ⟨helement, hline, hne, by simpa using hdigits⟩

/-- A text is a pointer exactly if it begins with an asterisk. -/
theorem layer_eq_pointerTo_iff {cs target : List Char} :
    layer cs = .pointerTo target ↔ cs = '*' :: target := by
  unfold layer
  split
  · simp
  · next hcs =>
    refine ⟨fun h => ?_, fun h => absurd h (hcs _)⟩
    split at h <;> cases h

/-- A text is an array exactly if it is an element and a number in brackets, with a semicolon
between them. -/
theorem layer_eq_arrayOf_iff {cs element digits : List Char} :
    layer cs = .arrayOf element digits ↔ ∃ blanks,
      cs = '[' :: (element ++ ';' :: (blanks ++ digits)) ++ [']'] ∧ (∀ c ∈ blanks, isBlank c) ∧
        element ≠ [] ∧ '\n' ∉ element ∧ digits ≠ [] ∧ ∀ c ∈ digits, isDecimalDigit c := by
  have hparts : (bracketed? cs).bind arrayParts? = some (element, digits) ↔ ∃ blanks,
      cs = '[' :: (element ++ ';' :: (blanks ++ digits)) ++ [']'] ∧ (∀ c ∈ blanks, isBlank c) ∧
        element ≠ [] ∧ '\n' ∉ element ∧ digits ≠ [] ∧ ∀ c ∈ digits, isDecimalDigit c := by
    rw [Option.bind_eq_some_iff]
    simp only [bracketed?_eq_some_iff, arrayParts?_eq_some_iff]
    constructor
    · rintro ⟨inner, rfl, blanks, rfl, h⟩
      exact ⟨blanks, rfl, h⟩
    · rintro ⟨blanks, rfl, h⟩
      exact ⟨_, rfl, blanks, rfl, h⟩
  rw [← hparts]
  unfold layer
  split
  · simp [bracketed?]
  · split
    · next hsome =>
      rw [hsome]
      simp
    · next hnone =>
      rw [hnone]
      simp

/-- A text that begins neither with an asterisk nor with a bracket is a name, or no type. -/
theorem layer_eq_name {cs : List Char} (hpointer : cs.head? ≠ some '*')
    (harray : cs.head? ≠ some '[') : layer cs = .name := by
  cases h : layer cs with
  | pointerTo target =>
    rw [layer_eq_pointerTo_iff.1 h] at hpointer
    exact absurd rfl hpointer
  | arrayOf element digits =>
    obtain ⟨blanks, rfl, -⟩ := layer_eq_arrayOf_iff.1 h
    exact absurd rfl harray
  | name => rfl

/-! ## Lengths and names -/

/-- A length is accepted exactly if it is written in ASCII digits, is positive and is a machine
word. -/
theorem arrayLength_eq_ok_iff {whole digits : List Char} {length : Nat} :
    arrayLength whole digits = .ok length ↔ (∀ c ∈ digits, c.isDigit) ∧
      Nat.ofDigitChars 10 digits 0 = length ∧ 1 ≤ length ∧ length < addressSpace := by
  have hvalue : (Text.decimalValue? digits).bind Word.fit? = some length ↔
      (∀ c ∈ digits, c.isDigit) ∧ Nat.ofDigitChars 10 digits 0 = length ∧
        length < addressSpace := by
    rw [Option.bind_eq_some_iff]
    simp only [Text.decimalValue?_eq_some_iff, Word.fit?_eq_some_iff]
    constructor
    · rintro ⟨n, ⟨hdigits, rfl⟩, hword, rfl⟩
      exact ⟨hdigits, rfl, hword⟩
    · rintro ⟨hdigits, rfl, hword⟩
      exact ⟨_, ⟨hdigits, rfl⟩, hword, rfl⟩
  unfold arrayLength
  constructor
  · intro h
    split at h
    · cases h
    · cases h
    · next n hzero hsome =>
      cases h
      obtain ⟨hdigits, heq, hword⟩ := hvalue.1 hsome
      exact ⟨hdigits, heq, Nat.pos_of_ne_zero hzero, hword⟩
  · rintro ⟨hdigits, heq, hpos, hword⟩
    rw [hvalue.2 ⟨hdigits, heq, hword⟩]
    split
    · next hnone => cases hnone
    · next hzero =>
      cases hzero
      cases hpos
    · next hsome =>
      cases hsome
      rfl

/-- The name of a class is accepted exactly if it is a dotted name. -/
theorem className_eq_ok_iff {whole name : List Char} {cls : ClassId} :
    className whole name = .ok cls ↔ IsDottedName name ∧ cls = ⟨String.ofList name⟩ := by
  unfold className
  rw [← isDotted_iff]
  by_cases h : isDotted name
  · rw [if_pos h, Except.ok.injEq, and_iff_right h]
    exact eq_comm
  · simp [h]

/-- The name of a scalar is accepted exactly if it is the name of that scalar. -/
theorem ofScalarName?_eq_some_iff {text : String} {scalar : PrimitiveType} :
    PrimitiveType.ofName? text = some scalar ↔ text = scalar.name := by
  constructor
  · intro h
    unfold PrimitiveType.ofName? at h
    have hname := List.find?_some h
    exact (beq_iff_eq.1 hname).symm
  · rintro rfl
    cases scalar <;> rfl

/-! ## What is read derives its type -/

/-- A name that is read derives the type. -/
theorem derives_of_ofName {cs : List Char} {type : AttributeType} (h : ofName cs = .ok type) :
    Derives cs type := by
  unfold ofName at h
  split at h
  · next rest =>
    obtain ⟨cls, hname, rfl⟩ := exists_eq_ok_of_map h
    obtain ⟨hdotted, rfl⟩ := className_eq_ok_iff.1 hname
    exact .reference (isTrimmed_trim rest) hdotted
  · by_cases hobject : cs = "object".toList
    · rw [if_pos hobject] at h
      cases h
      rw [hobject]
      exact .object
    · rw [if_neg hobject] at h
      split at h
      · next scalar hscalar =>
        cases h
        have hcs := congrArg String.toList (ofScalarName?_eq_some_iff.1 hscalar)
        rw [String.toList_ofList] at hcs
        rw [hcs]
        exact .primitive scalar
      · next hnone =>
        obtain ⟨cls, hname, rfl⟩ := exists_eq_ok_of_map h
        obtain ⟨hdotted, rfl⟩ := className_eq_ok_iff.1 hname
        refine .embedded hdotted hobject fun scalar hcs => ?_
        rw [hcs, String.ofList_toList, ofScalarName?_eq_some_iff.2 rfl] at hnone
        cases hnone

/-- What is read from a text derives from it, layer by layer. -/
theorem derives_of_ofChars {cs : List Char} {type : AttributeType} (h : ofChars cs = .ok type) :
    Derives (trim cs) type := by
  fun_induction ofChars cs generalizing type with
  | case1 cs target hlayer ih =>
    obtain ⟨inner, htarget, rfl⟩ := exists_eq_ok_of_map h
    rw [layer_eq_pointerTo_iff.1 hlayer]
    exact .pointer (isTrimmed_trim target) (ih htarget)
  | case2 => cases h
  | case3 cs element digits hlayer length hlength ih =>
    obtain ⟨inner, helement, rfl⟩ := exists_eq_ok_of_map h
    obtain ⟨blanks, hcs, hblanks, -, hline, -⟩ := layer_eq_arrayOf_iff.1 hlayer
    obtain ⟨hdigits, rfl, hpos, hword⟩ := arrayLength_eq_ok_iff.1 hlength
    rw [hcs]
    exact .array hline (isTrimmed_trim element) (ih helement) hblanks hdigits hpos hword
  | case4 => exact derives_of_ofName h

/-! ## What derives a type is read -/

/-- A pointer is read by its target. -/
theorem ofChars_eq_pointer {cs target : List Char} (h : layer (trim cs) = .pointerTo target) :
    ofChars cs = (ofChars target).map pointer := by
  rw [ofChars]
  split
  · next hlayer =>
    rw [h] at hlayer
    cases hlayer
    rfl
  · next hlayer =>
    rw [h] at hlayer
    cases hlayer
  · next hlayer =>
    rw [h] at hlayer
    cases hlayer

/-- A text that derives a type is not empty. -/
theorem Derives.ne_nil {cs : List Char} {type : AttributeType} (h : Derives cs type) : cs ≠ [] := by
  cases h with
  | primitive scalar => cases scalar <;> decide
  | embedded h => exact h.ne_nil
  | _ => simp

/-- A dotted name is neither a pointer nor an array. -/
theorem layer_eq_name_of_isDottedName {cs : List Char} (h : IsDottedName cs) :
    layer cs = .name := by
  have hmem : ∀ c, cs.head? = some c → c ≠ '*' ∧ c ≠ '[' := by
    intro c hc
    have hchar := h.mem (List.mem_of_head? hc)
    constructor <;>
    · rintro rfl
      exact absurd hchar (by unfold IsNameStart; decide)
  exact layer_eq_name (fun hc => (hmem _ hc).1 rfl) fun hc => (hmem _ hc).2 rfl

/-- A dotted name that names no scalar and no managed object names a class. -/
theorem ofName_eq_embedded {name : List Char} (h : IsDottedName name)
    (hobject : name ≠ "object".toList)
    (hscalar : ∀ scalar : PrimitiveType, name ≠ scalar.name.toList) :
    ofName name = .ok (.embedded ⟨String.ofList name⟩) := by
  unfold ofName
  split
  · next rest =>
    have hspace := h.mem (c := ' ') (by simp)
    exact absurd hspace (by unfold IsNameStart; decide)
  · rw [if_neg hobject]
    split
    · next scalar hsome =>
      have hname := congrArg String.toList (ofScalarName?_eq_some_iff.1 hsome)
      rw [String.toList_ofList] at hname
      exact absurd hname (hscalar scalar)
    · rw [className_eq_ok_iff.2 ⟨h, rfl⟩]
      rfl

/-- What derives from a text is read from it, whatever blanks stand around. -/
theorem Derives.ofChars_eq {core : List Char} {type : AttributeType} (h : Derives core type)
    {cs : List Char} (hcs : IsTrimmed core cs) : ofChars cs = .ok type := by
  have htrim := hcs.trim_eq
  -- What stands inside has its own blanks around it, so the text is general in the induction.
  induction h generalizing cs with
  | @pointer target inner type htarget _ ih =>
    rw [ofChars_eq_pointer (layer_eq_pointerTo_iff.2 htrim), ih htarget htarget.trim_eq]
    rfl
  | @reference rest name hrest hname =>
    have hlayer : layer (trim cs) = .name := by
      rw [htrim]
      exact layer_eq_name (by simp) (by simp)
    rw [ofChars_eq_ofName hlayer, htrim]
    simp only [ofName]
    rw [hrest.trim_eq, className_eq_ok_iff.2 ⟨hname, rfl⟩]
    rfl
  | @array element inner blanks digits type hline helement h hblanks hdigits hpos hword ih =>
    have hlayer : layer (trim cs) = .arrayOf element digits := by
      refine layer_eq_arrayOf_iff.2 ⟨blanks, htrim, hblanks, ?_, hline, ?_,
        fun c hc => Text.isDecimalDigit_of_isDigit (hdigits c hc)⟩
      · rintro rfl
        exact h.ne_nil helement.trim_eq.symm
      · rintro rfl
        exact absurd hpos (by decide)
    rw [ofChars_eq_array hlayer (arrayLength_eq_ok_iff.2 ⟨hdigits, rfl, hpos, hword⟩),
      ih helement helement.trim_eq]
    rfl
  | object =>
    rw [ofChars_eq_ofName (by rw [htrim]; decide), htrim]
    rfl
  | primitive scalar =>
    rw [ofChars_eq_ofName (by rw [htrim]; cases scalar <;> decide), htrim]
    cases scalar <;> rfl
  | embedded hname hobject hscalar =>
    rw [ofChars_eq_ofName (by rw [htrim]; exact layer_eq_name_of_isDottedName hname), htrim]
    exact ofName_eq_embedded hname hobject hscalar

/-! ## Texts -/

/-- The text stands for the type: without the blanks around it, it derives the type. -/
def Denotes (text : String) (type : AttributeType) : Prop :=
  ∃ core, IsTrimmed core text.toList ∧ Derives core type

/-- A text is read as a type, character by character, exactly if it denotes the type. -/
theorem ofChars_eq_ok_iff {text : String} {type : AttributeType} :
    ofChars text.toList = .ok type ↔ Denotes text type :=
  ⟨fun h => ⟨_, isTrimmed_trim _, derives_of_ofChars h⟩, fun ⟨_, htrim, h⟩ => h.ofChars_eq htrim⟩

/-- A text is read as a type exactly if it denotes the type. -/
theorem parse_eq_ok_iff {text : String} {type : AttributeType} :
    parse text = .ok type ↔ Denotes text type := by
  rw [← ofChars_eq_ok_iff]
  unfold parse
  cases ofChars text.toList <;> simp

/-- Reading the outer text goes on with the inner one. -/
def ReadsOn (inner outer : List Char) : Prop :=
  layer (trim outer) = .pointerTo inner ∨ ∃ digits, layer (trim outer) = .arrayOf inner digits

/-- Reading goes on to shorter texts. -/
theorem wellFounded_readsOn : WellFounded ReadsOn := by
  have hlt : ∀ inner outer, ReadsOn inner outer → inner.length < outer.length := by
    intro inner outer h
    have hle := Text.length_trim_le outer
    rcases h with h | ⟨digits, h⟩
    · exact Nat.lt_of_lt_of_le (length_of_layer_eq_pointerTo h) hle
    · exact Nat.lt_of_lt_of_le (length_of_layer_eq_arrayOf h) hle
  exact Subrelation.wf (hlt _ _) (measure List.length).wf

/-- A text is read as a type exactly when it denotes the type. Every other text is refused as one
that cannot be read, and reading comes to an end on every text. -/
theorem parse_iff_denotes (text : String) :
    (∀ type, parse text = .ok type ↔ Denotes text type) ∧
      ((∃ fault, parse text = .error (.parseError fault)) ↔ ¬ ∃ type, Denotes text type) ∧
      Acc ReadsOn text.toList := by
  refine ⟨fun type => parse_eq_ok_iff, ?_, wellFounded_readsOn.apply _⟩
  simp only [← parse_eq_ok_iff]
  cases h : parse text with
  | ok type => simp
  | error error =>
    unfold parse at h
    split at h
    · cases h
    · cases h
      simp

example : parse "[int8; ٣]" = .error (.parseError (.badLength "[int8; ٣]")) := by cbv

end ObjectLayout.AttributeType
