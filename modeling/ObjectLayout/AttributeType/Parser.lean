import ObjectLayout.AttributeType.Basic
import ObjectLayout.Text.Blank
import ObjectLayout.Text.DecimalDigit

/-!
# Reading attribute types

The text of a type is read from the outside inwards. Blanks around a text do not count. A text that
begins with `*` is a pointer to what follows; a text `[e; n]` is an array, split at its last
semicolon; every other text is a name, and the names that are neither `object` nor a scalar stand
for classes.
-/

set_option autoImplicit false

namespace ObjectLayout.AttributeType

/-- What the outermost layer of a text says. -/
inductive Layer where
  /-- A pointer to what the text says. -/
  | pointerTo (target : List Char)
  /-- An array whose element is what the first text says, and whose length the digits write. -/
  | arrayOf (element digits : List Char)
  /-- A name, or no type at all. -/
  | name
deriving DecidableEq, Repr

/-- The text before the last semicolon and the text after it. -/
def splitLastSemicolon? (cs : List Char) : Option (List Char × List Char) :=
  match cs.reverse.dropWhile (· != ';') with
  | [] => none
  | _ :: before => some (before.reverse, (cs.reverse.takeWhile (· != ';')).reverse)

/-- Element text and length digits of what stands between the brackets of an array text: a text
without line feeds, the last semicolon, blanks, and digits of any script. -/
def arrayParts? (inner : List Char) : Option (List Char × List Char) :=
  match splitLastSemicolon? inner with
  | none => none
  | some (element, rest) =>
    let digits := rest.dropWhile Text.isBlank
    if element ≠ [] ∧ '\n' ∉ element ∧ digits ≠ [] ∧ digits.all Text.isDecimalDigit then
      some (element, digits)
    else none

/-- The text between an opening and a closing bracket. -/
def bracketed? : List Char → Option (List Char)
  | '[' :: rest => if rest.getLast? = some ']' then some rest.dropLast else none
  | _ => none

/-- The outermost layer of a text without blanks at its ends. -/
def layer : List Char → Layer
  | '*' :: target => .pointerTo target
  | cs =>
    match (bracketed? cs).bind arrayParts? with
    | some (element, digits) => .arrayOf element digits
    | none => .name

/-- What stands before the last semicolon is shorter than the whole. -/
theorem length_splitLastSemicolon? {cs before after : List Char}
    (h : splitLastSemicolon? cs = some (before, after)) : before.length < cs.length := by
  simp only [splitLastSemicolon?] at h
  split at h
  · contradiction
  · next heq =>
    have hle := (List.dropWhile_sublist (l := cs.reverse) (· != ';')).length_le
    rw [heq] at hle
    simp only [Option.some.injEq, Prod.mk.injEq] at h
    simp only [List.length_cons, List.length_reverse] at hle
    rw [← h.1, List.length_reverse]
    omega

/-- The element of an array is shorter than what stands in the brackets. -/
theorem length_arrayParts? {inner element digits : List Char}
    (h : arrayParts? inner = some (element, digits)) : element.length < inner.length := by
  simp only [arrayParts?] at h
  split at h
  · contradiction
  · next heq =>
    split at h
    · simp only [Option.some.injEq, Prod.mk.injEq] at h
      rw [← h.1]
      exact length_splitLastSemicolon? heq
    · contradiction

/-- What stands in brackets is shorter than the whole. -/
theorem length_bracketed? {cs inner : List Char} (h : bracketed? cs = some inner) :
    inner.length < cs.length := by
  simp only [bracketed?] at h
  split at h
  · split at h
    · simp only [Option.some.injEq] at h
      rw [← h, List.length_dropLast, List.length_cons]
      omega
    · contradiction
  · contradiction

/-- The target of a pointer is shorter than the text of the pointer. -/
theorem length_of_layer_eq_pointerTo {cs target : List Char} (h : layer cs = .pointerTo target) :
    target.length < cs.length := by
  simp only [layer] at h
  split at h
  · simp only [Layer.pointerTo.injEq] at h
    rw [← h, List.length_cons]
    omega
  · split at h <;> contradiction

/-- The element of an array is shorter than the text of the array. -/
theorem length_of_layer_eq_arrayOf {cs element digits : List Char}
    (h : layer cs = .arrayOf element digits) : element.length < cs.length := by
  simp only [layer] at h
  split at h
  · contradiction
  · split at h
    · next heq =>
      obtain ⟨inner, hinner, hparts⟩ := Option.bind_eq_some_iff.1 heq
      simp only [Layer.arrayOf.injEq] at h
      have hlt := length_arrayParts? hparts
      have hlt' := length_bracketed? hinner
      rw [← h.1]
      omega
    · contradiction

/-- The length that the digits write. Digits of another script than ASCII write no length, nor does
a number that is no word. -/
def arrayLength (whole digits : List Char) : Except TypeFault Nat :=
  match (Text.decimalValue? digits).bind Word.fit? with
  | none => .error (.badLength (String.ofList whole))
  | some 0 => .error (.zeroLength (String.ofList whole))
  | some length => .ok length

/-- The class that a name stands for. -/
def className (whole name : List Char) : Except TypeFault ClassId :=
  if isDotted name then .ok ⟨String.ofList name⟩ else .error (.unknown (String.ofList whole))

/-- The type that a name stands for: a reference after `ref`, a managed object, a scalar, or else an
instance of a class. -/
def ofName (cs : List Char) : Except TypeFault AttributeType :=
  match cs with
  | 'r' :: 'e' :: 'f' :: ' ' :: rest => (className cs (Text.trim rest)).map reference
  | _ =>
    if cs = "object".toList then .ok object
    else
      match PrimitiveType.ofName? (String.ofList cs) with
      | some scalar => .ok (primitive scalar)
      | none => (className cs cs).map embedded

/-- The type that a text says, or the fault of the innermost layer that could be reached. The length
of an array is checked before its element. -/
def ofChars (cs : List Char) : Except TypeFault AttributeType :=
  match _h : layer (Text.trim cs) with
  | .pointerTo target => (ofChars target).map pointer
  | .arrayOf element digits =>
    match arrayLength (Text.trim cs) digits with
    | .error fault => .error fault
    | .ok length => (ofChars element).map (array · length)
  | .name => ofName (Text.trim cs)
termination_by cs.length
decreasing_by
  · have hlt := length_of_layer_eq_pointerTo _h
    have hle := Text.length_trim_le cs
    omega
  · have hlt := length_of_layer_eq_arrayOf _h
    have hle := Text.length_trim_le cs
    omega

/-- A text that writes neither a pointer nor an array is a name. -/
theorem ofChars_eq_ofName {cs : List Char} (h : layer (Text.trim cs) = .name) :
    ofChars cs = ofName (Text.trim cs) := by
  rw [ofChars]
  split
  · next hlayer =>
    rw [h] at hlayer
    cases hlayer
  · next hlayer =>
    rw [h] at hlayer
    cases hlayer
  · rfl

/-- A text that writes an array stands for an array of what the element stands for. -/
theorem ofChars_eq_array {cs element digits : List Char} {length : Nat}
    (h : layer (Text.trim cs) = .arrayOf element digits)
    (hlength : arrayLength (Text.trim cs) digits = .ok length) :
    ofChars cs = (ofChars element).map (array · length) := by
  rw [ofChars]
  split
  · next hlayer =>
    rw [h] at hlayer
    cases hlayer
  · next hlayer =>
    rw [h] at hlayer
    cases hlayer
    rw [hlength]
  · next hlayer =>
    rw [h] at hlayer
    cases hlayer

/-- The type that a text says. -/
def parse (text : String) : Except LayoutError AttributeType :=
  match ofChars text.toList with
  | .ok type => .ok type
  | .error fault => .error (.parseError fault)

end ObjectLayout.AttributeType
