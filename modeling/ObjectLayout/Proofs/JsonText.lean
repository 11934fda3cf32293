import ObjectLayout.Json.Printer
import ObjectLayout.Json.Reader
import ObjectLayout.Proofs.Lexemes
import Mathlib.Data.Option.Basic

/-!
# Texts that write JSON values

A value is written in several forms that differ in the spaces between its parts. `Writes` relates a
value to all of them, constructor by constructor; both the compact and the indented form are among
them (`writes_compact`, `writes_pretty`). The reader takes every text that writes a value back to
that very value (`readValue_of_writes`): numbers keep the way in which they are written and members
their order, so that nothing is lost. Only a string that stands for no text is written as another
one, and values with such strings are left out (`HasTexts`).
-/

set_option autoImplicit false

namespace ObjectLayout.Json

open Text (digitValue? digitValue?_eq_some_iff decimalValue? decimalValue?_eq_some_iff)

variable {c : Char} {cs rest : List Char} {n : Nat}

/-! ## Numbers -/

/-- A text that does not begin with a character that could belong to a number. -/
def EndsNumber (rest : List Char) : Prop :=
  ∀ c, rest.head? = some c → c.isDigit = false ∧ c ≠ '.' ∧ c ≠ 'e' ∧ c ≠ 'E'

/-- A character has a value as a digit exactly if it is one. -/
theorem isSome_digitValue? : (digitValue? c).isSome = c.isDigit := by
  rw [Bool.eq_iff_iff, Option.isSome_iff_exists]
  simp [digitValue?_eq_some_iff]

/-- The digits of a number are read to their end. -/
theorem readDigits_append (hdigits : ∀ c ∈ cs, c.isDigit) (hne : cs ≠ [])
    (hrest : ∀ c, rest.head? = some c → c.isDigit = false) :
    readDigits (cs ++ rest) = some (cs, rest) := by
  have htake : rest.takeWhile Char.isDigit = [] ∧ rest.dropWhile Char.isDigit = rest := by
    cases rest with
    | nil => exact ⟨rfl, rfl⟩
    | cons c rest =>
      have hc := hrest c rfl
      simp [hc]
  unfold readDigits
  simp only [isSome_digitValue?]
  rw [List.takeWhile_append_of_pos hdigits, List.dropWhile_append_of_pos hdigits, htake.1, htake.2]
  simp [hne]

/-- A number is written in digits. -/
theorem isDigit_of_mem_toDigits (hc : c ∈ Nat.toDigits 10 n) : c.isDigit :=
  Nat.isDigit_of_mem_toDigits (by decide) (by decide) hc

/-- The digits that write a number have it as their value. -/
theorem decimalValue?_toDigits (n : Nat) : decimalValue? (Nat.toDigits 10 n) = some n :=
  decimalValue?_eq_some_iff.2 ⟨fun _ => isDigit_of_mem_toDigits, Nat.ofDigitChars_ten_toDigits⟩

/-- Only zero is written with a zero in front. -/
theorem toDigits_eq_cons_zero (h : Nat.toDigits 10 n = '0' :: cs) : n = 0 ∧ cs = [] := by
  induction n using Nat.strong_induction_on generalizing cs with
  | _ n ih =>
    rcases Nat.lt_or_ge n 10 with hlt | hge
    · rw [Nat.toDigits_of_lt_base hlt] at h
      obtain ⟨hdigit, rfl⟩ := List.cons.inj h
      have hzero : ∀ m < 10, m.digitChar = '0' → m = 0 := by decide
      exact ⟨hzero n hlt hdigit, rfl⟩
    · rw [Nat.toDigits_of_base_le (by decide) hge] at h
      cases hhead : Nat.toDigits 10 (n / 10) with
      | nil => exact absurd hhead Nat.toDigits_ne_nil
      | cons first others =>
        rw [hhead] at h
        have hfirst : first = '0' := (List.cons.inj h).1
        subst hfirst
        have := (ih (n / 10) (by omega) hhead).1
        omega

/-- The digits of a number are read as a whole. -/
theorem readWhole_toDigits (hrest : ∀ c, rest.head? = some c → c.isDigit = false) :
    readWhole (Nat.toDigits 10 n ++ rest) = some (Nat.toDigits 10 n, rest) := by
  unfold readWhole
  split
  · next rest' heq =>
    cases hdigits : Nat.toDigits 10 n with
    | nil => exact absurd hdigits Nat.toDigits_ne_nil
    | cons first others =>
      rw [hdigits] at heq
      obtain ⟨rfl, htail⟩ := List.cons.inj heq
      obtain ⟨-, rfl⟩ := toDigits_eq_cons_zero hdigits
      rw [← htail]
      rfl
  · exact readDigits_append (fun _ => isDigit_of_mem_toDigits) Nat.toDigits_ne_nil hrest

/-- Where no point follows there is no fraction. -/
theorem readFraction_of_ne (h : ∀ c, cs.head? = some c → c ≠ '.') :
    readFraction cs = some (none, cs) := by
  unfold readFraction
  split
  · exact absurd rfl (h '.' rfl)
  · rfl

/-- Where the number ends there is no exponent. -/
theorem readExponent_of_endsNumber (h : EndsNumber rest) :
    readExponent rest = some (none, rest) := by
  cases rest with
  | nil => rfl
  | cons c rest =>
    obtain ⟨-, -, he, hE⟩ := h c rfl
    simp [readExponent, he, hE]

/-- The digits of a number begin with a digit. -/
theorem exists_toDigits_eq_cons (n : Nat) :
    ∃ first others, Nat.toDigits 10 n = first :: others ∧ first.isDigit := by
  obtain ⟨first, others, h⟩ := List.exists_cons_of_ne_nil (Nat.toDigits_ne_nil (n := n) (b := 10))
  refine ⟨first, others, h, isDigit_of_mem_toDigits (n := n) ?_⟩
  rw [h]
  exact List.mem_cons_self

/-- A sign in front of digits is read as the sign of the exponent. -/
theorem readSigned_signChars (exponent : Int)
    (hrest : ∀ c, rest.head? = some c → c.isDigit = false) :
    readSigned (signChars (exponent < 0) ++ Nat.toDigits 10 exponent.natAbs ++ rest) =
      some (exponent, rest) := by
  have hdigits : readDigits (Nat.toDigits 10 exponent.natAbs ++ rest) =
      some (Nat.toDigits 10 exponent.natAbs, rest) :=
    readDigits_append (fun _ => isDigit_of_mem_toDigits) Nat.toDigits_ne_nil hrest
  have hvalue : readSigned.value (Nat.toDigits 10 exponent.natAbs) = exponent.natAbs := by
    simp [readSigned.value, decimalValue?_toDigits]
  by_cases hneg : exponent < 0
  · simp only [signChars, hneg, decide_true, if_true, List.cons_append, List.nil_append, readSigned,
      hdigits, Option.map_some, hvalue]
    congr 2
    omega
  · simp only [signChars, hneg, decide_false, Bool.false_eq_true, if_false, List.nil_append]
    obtain ⟨first, others, hcons, hfirst⟩ := exists_toDigits_eq_cons exponent.natAbs
    unfold readSigned
    split
    · next heq =>
      rw [hcons] at heq
      cases heq
      cases hfirst
    · next heq =>
      rw [hcons] at heq
      cases heq
      cases hfirst
    · simp only [hdigits, Option.map_some, hvalue]
      congr 2
      omega

/-- The sign in front of a number is read. -/
theorem readNumber_signChars (negative : Bool) :
    readNumber (signChars negative ++ (Nat.toDigits 10 n ++ rest)) =
      readMagnitude negative (Nat.toDigits 10 n ++ rest) := by
  cases negative with
  | true => rfl
  | false =>
    obtain ⟨first, others, hcons, hfirst⟩ := exists_toDigits_eq_cons n
    simp only [signChars, Bool.false_eq_true, if_false, List.nil_append]
    unfold readNumber
    split
    · next heq =>
      rw [hcons] at heq
      cases heq
      cases hfirst
    · rfl

/-- Digits are read as an integer, or as those of a decimal number where an exponent follows. -/
theorem readMagnitude_toDigits (negative : Bool) (n : Nat)
    (hrest : ∀ c, rest.head? = some c → c.isDigit = false ∧ c ≠ '.') :
    readMagnitude negative (Nat.toDigits 10 n ++ rest) =
      (readExponent rest).map fun (exponent, rest) =>
        (exponent.elim (.integer negative n) (.decimal negative n), rest) := by
  have hwhole := readWhole_toDigits (n := n) fun c hc => (hrest c hc).1
  have hfraction := readFraction_of_ne fun c hc => (hrest c hc).2
  simp only [readMagnitude, hwhole, hfraction, Option.bind_eq_bind, Option.bind_some]
  cases readExponent rest with
  | none => rfl
  | some found =>
    obtain ⟨_ | exponent, rest⟩ := found <;> simp [decimalValue?_toDigits]

/-- A number is read back in the way in which it was written. -/
theorem readNumber_numberChars (number : Number) (h : EndsNumber rest) :
    readNumber (numberChars number ++ rest) = some (number, rest) := by
  cases number with
  | integer negative magnitude =>
    simp only [numberChars, List.append_assoc]
    rw [readNumber_signChars, readMagnitude_toDigits negative magnitude
      fun c hc => ⟨(h c hc).1, (h c hc).2.1⟩, readExponent_of_endsNumber h]
    rfl
  | decimal negative significand exponent =>
    have hexponent := readSigned_signChars exponent fun c hc => (h c hc).1
    simp only [numberChars, List.append_assoc, List.cons_append] at hexponent ⊢
    rw [readNumber_signChars, readMagnitude_toDigits negative significand (by simp)]
    simp [readExponent, hexponent]

/-! ## Strings -/

/-- A character is written by a letter behind a backslash, by its number, or by itself. -/
theorem escape_cases (c : Char) :
    (∃ letter, escaped? letter = some c ∧ escape c = ['\\', letter]) ∨
      (c.toNat < 32 ∧ escape c = hexEscape c.toNat) ∨
      (c ≠ '"' ∧ c ≠ '\\' ∧ ' ' ≤ c ∧ escape c = [c]) := by
  unfold escape
  split
  · exact .inl ⟨'"', rfl, rfl⟩
  · exact .inl ⟨'\\', rfl, rfl⟩
  · exact .inl ⟨'b', rfl, rfl⟩
  · exact .inl ⟨'f', rfl, rfl⟩
  · exact .inl ⟨'n', rfl, rfl⟩
  · exact .inl ⟨'r', rfl, rfl⟩
  · exact .inl ⟨'t', rfl, rfl⟩
  · next hquote hbackslash _ _ _ _ _ =>
    by_cases hcontrol : c < ' '
    · exact .inr (.inl ⟨hcontrol, if_pos hcontrol⟩)
    · exact .inr (.inr ⟨hquote, hbackslash, Char.not_lt.1 hcontrol, if_neg hcontrol⟩)

/-- The escape of a control character is read as the unit with its number. -/
theorem hexEscape_eq : ∀ n < 32,
    hexEscape n = ['\\', 'u', '0', '0', (n / 16).digitChar, (n % 16).digitChar] ∧
      hexUnit? '0' '0' (n / 16).digitChar (n % 16).digitChar = some n := by
  decide

/-- What is read behind a piece. -/
def readMore (piece : Piece) (rest : List Char) : Option (List Piece × List Char) :=
  (readPieces rest).map fun (pieces, rest) => (piece :: pieces, rest)

/-- A letter behind a backslash is read as the character that it stands for. -/
theorem readPieces_letter {letter : Char} (h : escaped? letter = some c) :
    readPieces ('\\' :: letter :: rest) = readMore (.char c) rest := by
  have hu : letter ≠ 'u' := by
    rintro rfl
    cases h
  rw [readPieces]
  · simp only [h, readMore]
    cases readPieces rest <;> rfl
  · exact fun _ _ _ _ _ heq _ => hu heq

/-- A character that is written by itself is read as itself. -/
theorem readPieces_char (hquote : c ≠ '"') (hbackslash : c ≠ '\\') (hspace : ' ' ≤ c) :
    readPieces (c :: rest) = readMore (.char c) rest := by
  have hguard : (guard (c ≠ '\\' ∧ ' ' ≤ c) : Option Unit) = some () :=
    if_pos ⟨hbackslash, hspace⟩
  rw [readPieces]
  · rw [hguard, readMore]
    cases readPieces rest <;> rfl
  all_goals simp_all

/-- A unit that is no half of a surrogate pair stands for a character by itself. -/
theorem textOfPieces_unit (h : n < 0xd800) (pieces : List Piece) :
    textOfPieces (.unit n :: pieces) = (textOfPieces pieces).map (Char.ofNat n :: ·) := by
  have hleading : isLeading n = false := by simp [isLeading]; omega
  have htrailing : isTrailing n = false := by simp [isTrailing]; omega
  rcases pieces with _ | ⟨_ | _, _⟩ <;> simp [textOfPieces, hleading, htrailing]

/-- Every character is written so that it is read as one piece, which stands for it. -/
theorem exists_piece (c : Char) : ∃ piece,
    (∀ rest, readPieces (escape c ++ rest) = readMore piece rest) ∧
      ∀ pieces, textOfPieces (piece :: pieces) = (textOfPieces pieces).map (c :: ·) := by
  rcases escape_cases c with ⟨letter, hletter, h⟩ | ⟨hlt, h⟩ | ⟨hquote, hbackslash, hspace, h⟩
  · refine ⟨.char c, fun rest => ?_, fun _ => rfl⟩
    rw [h]
    exact readPieces_letter hletter
  · obtain ⟨hwritten, hread⟩ := hexEscape_eq c.toNat hlt
    refine ⟨.unit c.toNat, fun rest => ?_, fun pieces => ?_⟩
    · rw [h, hwritten]
      simp only [List.cons_append, List.nil_append, readPieces, hread, readMore]
      cases readPieces rest <;> rfl
    · rw [textOfPieces_unit (by omega), Char.ofNat_toNat]
  · refine ⟨.char c, fun rest => ?_, fun _ => rfl⟩
    rw [h]
    exact readPieces_char hquote hbackslash hspace

/-- A string that stands for a text is read back. -/
theorem readString_quoted (text : String) (rest : List Char) :
    readString (text.toList.flatMap escape ++ '"' :: rest) = some (some text, rest) := by
  have key : ∀ cs : List Char, ∃ pieces, readPieces (cs.flatMap escape ++ '"' :: rest) =
      some (pieces, rest) ∧ textOfPieces pieces = some cs := by
    intro cs
    induction cs with
    | nil => exact ⟨[], rfl, rfl⟩
    | cons c cs ih =>
      obtain ⟨piece, hwritten, hstands⟩ := exists_piece c
      obtain ⟨pieces, hread, htext⟩ := ih
      refine ⟨piece :: pieces, ?_, ?_⟩
      · rw [List.flatMap_cons, List.append_assoc, hwritten, readMore, hread]
        rfl
      · rw [hstands, htext]
        rfl
  obtain ⟨pieces, hread, htext⟩ := key text.toList
  simp [readString, hread, htext]

/-! ## Values -/

/-- What may stand between the parts of a value. -/
def IsGap (cs : List Char) : Prop := ∀ c ∈ cs, isSpace c

mutual

/-- A text without spaces around it that writes a value. -/
inductive Writes : Json → List Char → Prop where
  | null : Writes null "null".toList
  | boolTrue : Writes (bool true) "true".toList
  | boolFalse : Writes (bool false) "false".toList
  | num (number : Number) : Writes (num number) (numberChars number)
  | str (text : String) : Writes (str (some text)) (quoted (some text))
  | emptyArr : Writes (arr []) ['[', ']']
  | arr {item : Json} {items : List Json} {gap first more : List Char} (hgap : IsGap gap)
      (hitem : Writes item first) (hitems : WritesItems items more) :
      Writes (arr (item :: items)) ('[' :: (gap ++ (first ++ more)))
  | emptyObj : Writes (obj []) ['{', '}']
  | obj (name : String) {value : Json} {members : List (Option String × Json)}
      {gap between first more : List Char} (hgap : IsGap gap) (hbetween : IsGap between)
      (hvalue : Writes value first) (hmembers : WritesMembers members more) :
      Writes (obj ((some name, value) :: members))
        ('{' :: (gap ++ (quoted (some name) ++ ':' :: (between ++ (first ++ more)))))

/-- A text that writes what follows an item of an array. -/
inductive WritesItems : List Json → List Char → Prop where
  | nil {gap : List Char} (hgap : IsGap gap) : WritesItems [] (gap ++ [']'])
  | cons {item : Json} {items : List Json} {gap first more : List Char} (hgap : IsGap gap)
      (hitem : Writes item first) (hitems : WritesItems items more) :
      WritesItems (item :: items) (',' :: (gap ++ (first ++ more)))

/-- A text that writes what follows a member of an object. -/
inductive WritesMembers : List (Option String × Json) → List Char → Prop where
  | nil {gap : List Char} (hgap : IsGap gap) : WritesMembers [] (gap ++ ['}'])
  | cons (name : String) {value : Json} {members : List (Option String × Json)}
      {gap between first more : List Char} (hgap : IsGap gap) (hbetween : IsGap between)
      (hvalue : Writes value first) (hmembers : WritesMembers members more) :
      WritesMembers ((some name, value) :: members)
        (',' :: (gap ++ (quoted (some name) ++ ':' :: (between ++ (first ++ more)))))

end

/-- There are four characters that count as spaces. -/
theorem isSpace_iff : isSpace c ↔ c = ' ' ∨ c = '\t' ∨ c = '\n' ∨ c = '\r' := by
  simp [isSpace, or_assoc]

/-- A gap in front of a text is skipped. -/
theorem skipSpaces_append {gap : List Char} (hgap : IsGap gap) (cs : List Char) :
    skipSpaces (gap ++ cs) = skipSpaces cs :=
  List.dropWhile_append_of_pos hgap

/-- What begins with no space is not skipped. -/
theorem skipSpaces_cons (h : isSpace c = false) : skipSpaces (c :: cs) = c :: cs := by
  simp [skipSpaces, h]

/-- A gap in front of a value does not matter. -/
theorem readValue_gap {gap : List Char} (hgap : IsGap gap) (fuel : Nat) (cs : List Char) :
    readValue fuel (gap ++ cs) = readValue fuel cs := by
  cases fuel with
  | zero => rfl
  | succ fuel => simp only [readValue, skipSpaces_append hgap]

/-- A word does not stand where another character does. -/
theorem after?_of_ne {w : Char} {word : List Char} (h : w ≠ c) :
    after? (w :: word) (c :: cs) = none := by
  simp [after?, h]

/-- A character with which a number can begin. -/
def StartsNumber (c : Char) : Prop := c = '-' ∨ c.isDigit

/-- A number begins with no other character than a sign or a digit. -/
theorem StartsNumber.ne {first : Char} (h : StartsNumber first) (hsign : c ≠ '-')
    (hdigit : c.isDigit = false) : first ≠ c := by
  rintro rfl
  rcases h with h | h
  · exact hsign h
  · rw [hdigit] at h
    cases h

/-- A number does not begin with a space. -/
theorem StartsNumber.isSpace_eq_false {first : Char} (h : StartsNumber first) :
    isSpace first = false := by
  apply Bool.eq_false_iff.2
  intro hspace
  rcases isSpace_iff.1 hspace with rfl | rfl | rfl | rfl <;>
    exact h.ne (by decide) (by decide) rfl

/-- A number is written with a sign or a digit in front. -/
theorem exists_numberChars_eq_cons (number : Number) :
    ∃ first others, numberChars number = first :: others ∧ StartsNumber first := by
  have key : ∀ (negative : Bool) (n : Nat) (more : List Char), ∃ first others,
      signChars negative ++ Nat.toDigits 10 n ++ more = first :: others ∧ StartsNumber first := by
    intro negative n more
    cases negative with
    | true => exact ⟨_, _, rfl, .inl rfl⟩
    | false =>
      obtain ⟨first, others, hcons, hfirst⟩ := exists_toDigits_eq_cons n
      refine ⟨first, others ++ more, ?_, .inr hfirst⟩
      rw [hcons]
      rfl
  cases number with
  | integer negative magnitude => simpa [numberChars] using key negative magnitude []
  | decimal negative significand exponent =>
    simpa [numberChars] using key negative significand
      ('e' :: (signChars (exponent < 0) ++ Nat.toDigits 10 exponent.natAbs))

/-- A number is read back as a scalar. -/
theorem readScalar_number (number : Number) (hrest : EndsNumber rest) :
    readScalar (numberChars number ++ rest) = some (num number, rest) := by
  have hread := readNumber_numberChars number hrest
  obtain ⟨first, others, hcons, hfirst⟩ := exists_numberChars_eq_cons number
  rw [hcons, List.cons_append] at hread ⊢
  have hn : after? "null".toList (first :: (others ++ rest)) = none :=
    after?_of_ne (hfirst.ne (by decide) (by decide)).symm
  have ht : after? "true".toList (first :: (others ++ rest)) = none :=
    after?_of_ne (hfirst.ne (by decide) (by decide)).symm
  have hf : after? "false".toList (first :: (others ++ rest)) = none :=
    after?_of_ne (hfirst.ne (by decide) (by decide)).symm
  simp only [readScalar, hn, ht, hf, hread, Option.map_some]

/-- A number is read back as a value. -/
theorem readValue_number (fuel : Nat) (number : Number) (hrest : EndsNumber rest) :
    readValue (fuel + 1) (numberChars number ++ rest) = some (num number, rest) := by
  have hscalar := readScalar_number number hrest
  obtain ⟨first, others, hcons, hfirst⟩ := exists_numberChars_eq_cons number
  rw [hcons, List.cons_append] at hscalar ⊢
  rw [readValue, skipSpaces_cons hfirst.isSpace_eq_false]
  split
  · next heq => exact absurd (List.cons.inj heq).1 (hfirst.ne (by decide) (by decide))
  · next heq => exact absurd (List.cons.inj heq).1 (hfirst.ne (by decide) (by decide))
  · next heq => exact absurd (List.cons.inj heq).1 (hfirst.ne (by decide) (by decide))
  · exact hscalar

/-- A text in quotation marks and what follows, with the first mark in front. -/
theorem quoted_append (text : String) (rest : List Char) :
    quoted (some text) ++ rest = '"' :: (text.toList.flatMap escape ++ '"' :: rest) := by
  simp [quoted]

/-- A text in quotation marks is read back as a value. -/
theorem readValue_quoted (fuel : Nat) (text : String) (rest : List Char) :
    readValue (fuel + 1) (quoted (some text) ++ rest) = some (str (some text), rest) := by
  rw [quoted_append, readValue, skipSpaces_cons (by decide)]
  simp only [readString_quoted, Option.map_some]

/-- The first character of a value is no space, and closes nothing. -/
theorem Writes.exists_eq_cons {value : Json} (h : Writes value cs) :
    ∃ first others, cs = first :: others ∧ isSpace first = false ∧ first ≠ ']' := by
  cases h with
  | num number =>
    obtain ⟨first, others, hcons, hfirst⟩ := exists_numberChars_eq_cons number
    exact ⟨first, others, hcons, hfirst.isSpace_eq_false, hfirst.ne (by decide) (by decide)⟩
  | str text => exact ⟨_, _, rfl, by decide⟩
  | _ => exact ⟨_, _, rfl, by decide⟩

/-- A value that is read behind an opening bracket is the first item of an array. -/
theorem readValue_arr {fuel : Nat} {gap first more rest : List Char} {item : Json}
    {items : List Json} (hgap : IsGap gap) (hitem : Writes item first)
    (hfirst : readValue fuel (first ++ (more ++ rest)) = some (item, more ++ rest))
    (hmore : readItems fuel (more ++ rest) = some (items, rest)) :
    readValue (fuel + 1) ('[' :: (gap ++ (first ++ (more ++ rest)))) =
      some (arr (item :: items), rest) := by
  obtain ⟨c, others, rfl, hspace, hclose⟩ := hitem.exists_eq_cons
  rw [List.cons_append] at hfirst ⊢
  have hskip : skipSpaces (gap ++ c :: (others ++ (more ++ rest))) =
      c :: (others ++ (more ++ rest)) := by
    rw [skipSpaces_append hgap, skipSpaces_cons hspace]
  rw [readValue, skipSpaces_cons (by decide)]
  simp only [hskip]
  split
  · next heq => exact absurd (List.cons.inj heq).1 hclose
  · simp [hfirst, hmore]

/-- An item and those behind it are read one after the other. -/
theorem readItems_cons {fuel : Nat} {gap first more rest : List Char} {item : Json}
    {items : List Json} (hgap : IsGap gap)
    (hfirst : readValue fuel (first ++ (more ++ rest)) = some (item, more ++ rest))
    (hmore : readItems fuel (more ++ rest) = some (items, rest)) :
    readItems (fuel + 1) (',' :: (gap ++ (first ++ (more ++ rest)))) =
      some (item :: items, rest) := by
  rw [readItems, skipSpaces_cons (by decide)]
  simp [readValue_gap hgap, hfirst, hmore]

/-- A closing bracket ends the items. -/
theorem readItems_nil {gap : List Char} (fuel : Nat) (hgap : IsGap gap) (rest : List Char) :
    readItems (fuel + 1) (gap ++ ']' :: rest) = some ([], rest) := by
  rw [readItems, skipSpaces_append hgap, skipSpaces_cons (by decide)]
  rfl

/-- A gap in front of a member does not matter. -/
theorem readMember_gap {gap : List Char} (hgap : IsGap gap) (fuel : Nat) (cs : List Char) :
    readMember fuel (gap ++ cs) = readMember fuel cs := by
  cases fuel with
  | zero => rfl
  | succ fuel => simp only [readMember, skipSpaces_append hgap]

/-- A name and a value are read as a member. -/
theorem readMember_quoted {fuel : Nat} {between first rest : List Char} {value : Json}
    (name : String) (hbetween : IsGap between)
    (hvalue : readValue fuel (first ++ rest) = some (value, rest)) :
    readMember (fuel + 1) (quoted (some name) ++ ':' :: (between ++ (first ++ rest))) =
      some ((some name, value), rest) := by
  have hcolon : skipSpaces (':' :: (between ++ (first ++ rest))) =
      ':' :: (between ++ (first ++ rest)) := skipSpaces_cons (by decide)
  rw [readMember, quoted_append, skipSpaces_cons (by decide)]
  simp [readString_quoted, hcolon, readValue_gap hbetween, hvalue]

/-- A member that is read behind an opening brace is the first one of an object. -/
theorem readValue_obj {fuel : Nat} {gap others rest rest' : List Char}
    {member : Option String × Json} {members : List (Option String × Json)} (hgap : IsGap gap)
    (hfirst : readMember fuel ('"' :: others) = some (member, rest'))
    (hmore : readMembers fuel rest' = some (members, rest)) :
    readValue (fuel + 1) ('{' :: (gap ++ '"' :: others)) =
      some (obj (member :: members), rest) := by
  have hskip : skipSpaces (gap ++ '"' :: others) = '"' :: others := by
    rw [skipSpaces_append hgap, skipSpaces_cons (by decide)]
  rw [readValue, skipSpaces_cons (by decide)]
  simp [hskip, hfirst, hmore]

/-- A member and those behind it are read one after the other. -/
theorem readMembers_cons {fuel : Nat} {gap cs rest rest' : List Char}
    {member : Option String × Json} {members : List (Option String × Json)} (hgap : IsGap gap)
    (hfirst : readMember fuel cs = some (member, rest'))
    (hmore : readMembers fuel rest' = some (members, rest)) :
    readMembers (fuel + 1) (',' :: (gap ++ cs)) = some (member :: members, rest) := by
  rw [readMembers, skipSpaces_cons (by decide)]
  simp [readMember_gap hgap, hfirst, hmore]

/-- A closing brace ends the members. -/
theorem readMembers_nil {gap : List Char} (fuel : Nat) (hgap : IsGap gap) (rest : List Char) :
    readMembers (fuel + 1) (gap ++ '}' :: rest) = some ([], rest) := by
  rw [readMembers, skipSpaces_append hgap, skipSpaces_cons (by decide)]
  rfl

/-! ## Reading what was written -/

/-- A number ends before a character that cannot belong to it. -/
theorem EndsNumber.cons (h : c.isDigit = false ∧ c ≠ '.' ∧ c ≠ 'e' ∧ c ≠ 'E') (rest : List Char) :
    EndsNumber (c :: rest) := by
  rintro _ ⟨⟩
  exact h

/-- A number ends before a space. -/
theorem endsNumber_of_isSpace (h : isSpace c) (rest : List Char) : EndsNumber (c :: rest) := by
  rcases isSpace_iff.1 h with rfl | rfl | rfl | rfl <;> exact .cons (by decide) rest

/-- A number ends before a gap if it ends before what follows. -/
theorem endsNumber_append {gap : List Char} (hgap : IsGap gap) (h : EndsNumber rest) :
    EndsNumber (gap ++ rest) := by
  cases gap with
  | nil => exact h
  | cons c gap => exact endsNumber_of_isSpace (hgap c List.mem_cons_self) _

/-- A number ends before what follows an item. -/
theorem WritesItems.endsNumber {items : List Json} (h : WritesItems items cs) (rest : List Char) :
    EndsNumber (cs ++ rest) := by
  cases h with
  | nil hgap =>
    rw [List.append_assoc]
    exact endsNumber_append hgap (.cons (by decide) rest)
  | cons _ _ _ => exact .cons (by decide) _

/-- A number ends before what follows a member. -/
theorem WritesMembers.endsNumber {members : List (Option String × Json)}
    (h : WritesMembers members cs) (rest : List Char) : EndsNumber (cs ++ rest) := by
  cases h with
  | nil hgap =>
    rw [List.append_assoc]
    exact endsNumber_append hgap (.cons (by decide) rest)
  | cons _ _ _ _ => exact .cons (by decide) _

mutual

/-- A text that writes a value is read back as the value. Every step of the reader takes a character
at least, so that the length of the text is fuel enough. -/
theorem readValue_of_writes {value : Json} {cs : List Char} (h : Writes value cs) (fuel : Nat)
    (hfuel : cs.length ≤ fuel) (rest : List Char) (hrest : EndsNumber rest) :
    readValue fuel (cs ++ rest) = some (value, rest) := by
  obtain ⟨first, others, hcons, -⟩ := h.exists_eq_cons
  obtain ⟨fuel, rfl⟩ : ∃ n, fuel = n + 1 := ⟨fuel - 1, by
    rw [hcons, List.length_cons] at hfuel
    omega⟩
  cases h with
  | null => rfl
  | boolTrue => rfl
  | boolFalse => rfl
  | num number => exact readValue_number fuel number hrest
  | str text => exact readValue_quoted fuel text rest
  | emptyArr => rfl
  | emptyObj => rfl
  | @arr item items gap first more hgap hitem hitems =>
    simp only [List.length_cons, List.length_append] at hfuel
    have hfirst := readValue_of_writes hitem fuel (by omega) _ (hitems.endsNumber rest)
    have hmore := readItems_of_writes hitems fuel (by omega) rest
    simp only [List.cons_append, List.append_assoc]
    exact readValue_arr hgap hitem hfirst hmore
  | @obj name value members gap between first more hgap hbetween hvalue hmembers =>
    simp only [List.length_cons, List.length_append] at hfuel
    obtain ⟨fuel, rfl⟩ : ∃ n, fuel = n + 1 := ⟨fuel - 1, by omega⟩
    have hfirst := readValue_of_writes hvalue fuel (by omega) _ (hmembers.endsNumber rest)
    have hmember := readMember_quoted name hbetween hfirst
    have hmore := readMembers_of_writes hmembers (fuel + 1) (by omega) rest
    simp only [List.cons_append, List.append_assoc]
    rw [quoted_append] at hmember ⊢
    exact readValue_obj hgap hmember hmore

/-- A text that writes items is read back as the items. -/
theorem readItems_of_writes {items : List Json} {cs : List Char} (h : WritesItems items cs)
    (fuel : Nat) (hfuel : cs.length ≤ fuel) (rest : List Char) :
    readItems fuel (cs ++ rest) = some (items, rest) := by
  cases h with
  | @nil gap hgap =>
    simp only [List.length_append, List.length_singleton] at hfuel
    obtain ⟨fuel, rfl⟩ : ∃ n, fuel = n + 1 := ⟨fuel - 1, by omega⟩
    rw [List.append_assoc]
    exact readItems_nil fuel hgap rest
  | @cons item items gap first more hgap hitem hitems =>
    simp only [List.length_cons, List.length_append] at hfuel
    obtain ⟨fuel, rfl⟩ : ∃ n, fuel = n + 1 := ⟨fuel - 1, by omega⟩
    have hfirst := readValue_of_writes hitem fuel (by omega) _ (hitems.endsNumber rest)
    have hmore := readItems_of_writes hitems fuel (by omega) rest
    simp only [List.cons_append, List.append_assoc]
    exact readItems_cons hgap hfirst hmore

/-- A text that writes members is read back as the members. -/
theorem readMembers_of_writes {members : List (Option String × Json)} {cs : List Char}
    (h : WritesMembers members cs) (fuel : Nat) (hfuel : cs.length ≤ fuel) (rest : List Char) :
    readMembers fuel (cs ++ rest) = some (members, rest) := by
  cases h with
  | @nil gap hgap =>
    simp only [List.length_append, List.length_singleton] at hfuel
    obtain ⟨fuel, rfl⟩ : ∃ n, fuel = n + 1 := ⟨fuel - 1, by omega⟩
    rw [List.append_assoc]
    exact readMembers_nil fuel hgap rest
  | @cons name value members gap between first more hgap hbetween hvalue hmembers =>
    simp only [List.length_cons, List.length_append] at hfuel
    obtain ⟨fuel, rfl⟩ : ∃ n, fuel = n + 2 := ⟨fuel - 2, by omega⟩
    have hfirst := readValue_of_writes hvalue fuel (by omega) _ (hmembers.endsNumber rest)
    have hmember := readMember_quoted name hbetween hfirst
    have hmore := readMembers_of_writes hmembers (fuel + 1) (by omega) rest
    simp only [List.cons_append, List.append_assoc]
    exact readMembers_cons hgap hmember hmore

end

/-- A text that writes a value is read as the value, and spaces may follow it. -/
theorem ofChars?_append_gap {value : Json} {gap : List Char} (h : Writes value cs)
    (hgap : IsGap gap) : ofChars? (cs ++ gap) = some value := by
  have hends : EndsNumber gap := by
    have hnil : EndsNumber [] := fun _ hc => nomatch hc
    simpa using endsNumber_append hgap hnil
  have hfuel : cs.length ≤ (cs ++ gap).length + 1 := by
    rw [List.length_append]
    omega
  have hread := readValue_of_writes h _ hfuel gap hends
  have hskip : skipSpaces gap = [] := List.dropWhile_eq_nil_iff.2 hgap
  unfold ofChars?
  rw [hread]
  exact if_pos hskip

/-! ## The two written forms -/

/-- Every string in the value stands for a text. -/
inductive HasTexts : Json → Prop where
  | null : HasTexts null
  | bool (value : Bool) : HasTexts (bool value)
  | num (number : Number) : HasTexts (num number)
  | str (text : String) : HasTexts (str (some text))
  | arr {items : List Json} (hitems : ∀ item ∈ items, HasTexts item) : HasTexts (arr items)
  | obj {members : List (String × Json)} (hmembers : ∀ member ∈ members, HasTexts member.2) :
      HasTexts (ofMembers members)

/-- Items are written one after another, with a comma and a gap in front of each. -/
theorem writesItems_of_forall {write : Json → List Char} (tail : List Json → List Char)
    {gap last : List Char} (hgap : IsGap gap) (hlast : IsGap last) (hnil : tail [] = last ++ [']'])
    (hcons : ∀ item items, tail (item :: items) = ',' :: (gap ++ (write item ++ tail items)))
    {items : List Json} (h : ∀ item ∈ items, Writes item (write item)) :
    WritesItems items (tail items) := by
  induction items with
  | nil =>
    rw [hnil]
    exact .nil hlast
  | cons item items ih =>
    obtain ⟨hitem, hitems⟩ := List.forall_mem_cons.1 h
    rw [hcons]
    exact .cons hgap hitem (ih hitems)

/-- Members are written one after another, with a comma and a gap in front of each. -/
theorem writesMembers_of_forall {write : Json → List Char}
    (tail : List (Option String × Json) → List Char) {gap between last : List Char}
    (hgap : IsGap gap) (hbetween : IsGap between) (hlast : IsGap last)
    (hnil : tail [] = last ++ ['}'])
    (hcons : ∀ name value members, tail ((name, value) :: members) =
      ',' :: (gap ++ (quoted name ++ ':' :: (between ++ (write value ++ tail members)))))
    {members : List (String × Json)} (h : ∀ member ∈ members, Writes member.2 (write member.2)) :
    WritesMembers (members.map fun (name, value) => (some name, value))
      (tail (members.map fun (name, value) => (some name, value))) := by
  induction members with
  | nil =>
    rw [List.map_nil, hnil]
    exact .nil hlast
  | cons member members ih =>
    obtain ⟨hmember, hmembers⟩ := List.forall_mem_cons.1 h
    rw [List.map_cons, hcons]
    exact .cons member.1 hgap hbetween hmember (ih hmembers)

/-- Nothing has to stand between the parts of a value. -/
theorem isGap_nil : IsGap [] := fun _ h => nomatch h

/-- A new line with its indentation is a gap. -/
theorem isGap_newLine (depth : Nat) : IsGap (newLine depth) := by
  refine List.forall_mem_cons.2 ⟨rfl, fun c hc => ?_⟩
  rw [List.eq_of_mem_replicate hc]
  rfl

/-- The compact form is one in which the value is written. -/
theorem writes_compact {value : Json} (h : HasTexts value) : Writes value (compactChars value) := by
  induction h with
  | null => exact .null
  | bool b => cases b with
    | true => exact .boolTrue
    | false => exact .boolFalse
  | num number => exact .num number
  | str text => exact .str text
  | @arr items _ ih =>
    cases items with
    | nil => exact .emptyArr
    | cons item items =>
      obtain ⟨hitem, hitems⟩ := List.forall_mem_cons.1 ih
      exact .arr isGap_nil hitem
        (writesItems_of_forall compactItems isGap_nil isGap_nil rfl (fun _ _ => rfl) hitems)
  | @obj members _ ih =>
    cases members with
    | nil => exact .emptyObj
    | cons member members =>
      obtain ⟨hmember, hmembers⟩ := List.forall_mem_cons.1 ih
      have hmore := writesMembers_of_forall compactMembers isGap_nil isGap_nil isGap_nil
        rfl (fun _ _ _ => by simp [compactMembers]) hmembers
      have hobj := Writes.obj member.1 isGap_nil isGap_nil hmember hmore
      simpa [ofMembers, compactChars] using hobj

/-- The indented form is one in which the value is written. -/
theorem writes_pretty {value : Json} (h : HasTexts value) (depth : Nat) :
    Writes value (prettyChars depth value) := by
  induction h generalizing depth with
  | null => exact .null
  | bool b => cases b with
    | true => exact .boolTrue
    | false => exact .boolFalse
  | num number => exact .num number
  | str text => exact .str text
  | @arr items _ ih =>
    cases items with
    | nil => exact .emptyArr
    | cons item items =>
      obtain ⟨hitem, hitems⟩ := List.forall_mem_cons.1 fun item hmem => ih item hmem (depth + 1)
      have hmore := writesItems_of_forall (prettyItems depth) (isGap_newLine (depth + 1))
        (isGap_newLine depth) rfl (fun _ _ => by simp [prettyItems]) hitems
      have harr := Writes.arr (isGap_newLine (depth + 1)) hitem hmore
      simpa [prettyChars] using harr
  | @obj members _ ih =>
    cases members with
    | nil => exact .emptyObj
    | cons member members =>
      obtain ⟨hmember, hmembers⟩ := List.forall_mem_cons.1 fun member hmem =>
        ih member hmem (depth + 1)
      have hspace : IsGap [' '] := List.forall_mem_singleton.2 rfl
      have hmore := writesMembers_of_forall (prettyMembers depth)
        (isGap_newLine (depth + 1)) hspace (isGap_newLine depth) rfl
        (fun _ _ _ => by simp [prettyMembers]) hmembers
      have hobj := Writes.obj member.1 (isGap_newLine (depth + 1)) hspace hmember hmore
      simpa [ofMembers, prettyChars] using hobj

/-- A value of which every string stands for a text is read back from its compact form. -/
theorem parse?_compact {value : Json} (h : HasTexts value) : parse? value.compact = some value := by
  simpa [parse?, compact] using ofChars?_append_gap (writes_compact h) isGap_nil

/-- A value of which every string stands for a text is read back from its indented form. -/
theorem parse?_pretty {value : Json} (h : HasTexts value) : parse? value.pretty = some value := by
  simpa [parse?, pretty] using ofChars?_append_gap (writes_pretty h 0) isGap_nil

end ObjectLayout.Json
