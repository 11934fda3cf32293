import ObjectLayout.AttributeType.Parser
import ObjectLayout.Proofs.Alignment
import ObjectLayout.Proofs.Knowledge

/-!
# The space of a field

Every type is aligned to a power of two. It takes at least one byte unless an array in it has no
elements or an instance stored in place is empty. No text says such an array (`isFilled_of_parse`).
-/

set_option autoImplicit false

namespace ObjectLayout

open LayoutM (exists_eq_ok_of_bind bind_eq_ok)

/-- A type that is not an array without elements, nor an array of such arrays. -/
def AttributeType.IsFilled : AttributeType → Prop
  | .array element length => 0 < length ∧ element.IsFilled
  | .primitive _ | .object | .pointer _ | .reference _ | .embedded _ => True

/-- The space of a type for the attributes of a class. -/
def Knowledge.fieldSpace (known : Knowledge) (pointerSize : Nat) (user : ClassId)
    (type : AttributeType) : Except LayoutError FieldLayout :=
  (type.layout (known.env pointerSize user)).answer

/-- Every class that is known is aligned to a power of two. -/
def Knowledge.IsAligned (known : Knowledge) : Prop :=
  ∀ ⦃cls e⦄, known cls = .ok (some e) → e.alignment.IsPower

/-- The instances of every class that is known take space. -/
def Knowledge.TakesSpace (known : Knowledge) : Prop :=
  ∀ ⦃cls e⦄, known cls = .ok (some e) → 0 < e.size

/-- The alignment of a scalar is a power of two. -/
theorem PrimitiveType.isPower_alignment (scalar : PrimitiveType) : scalar.alignment.IsPower := by
  cases scalar <;> exact Alignment.isPower_natural _

/-- An array has the alignment of its element, and the elements stand at multiples of a rounded
size. -/
theorem FieldLayout.arrayOf_ok {space field : FieldLayout} {element : AttributeType} {length : Nat}
    (h : space.arrayOf element length = .ok field) :
    field.alignment = space.alignment ∧
      ∃ stride, space.alignment.align space.size = some stride ∧ field.size = stride * length := by
  unfold arrayOf at h
  split at h
  · next size hsize =>
    cases h
    obtain ⟨stride, hstride, hmul⟩ := Option.bind_eq_some_iff.1 hsize
    obtain ⟨-, heq⟩ := Word.fit?_eq_some_iff.1 hmul
    exact ⟨rfl, stride, hstride, heq.symm⟩
  · cases h

namespace Knowledge

variable {known : Knowledge} {pointerSize : Nat} {user : ClassId} {type : AttributeType}
  {field : FieldLayout}

/-- The space of an embedded class is that of an instance. -/
theorem of_space_eq_ok {cls : ClassId} (h : known.space user cls = .ok field) :
    ∃ e, known cls = .ok (some e) ∧ field = ⟨e.size, e.alignment⟩ := by
  obtain ⟨answer, hknown, hspace⟩ := exists_eq_ok_of_bind h
  cases answer with
  | none => cases hspace
  | some e =>
    cases hspace
    exact ⟨e, hknown, rfl⟩

/-- An embedded class takes the space of the class. -/
theorem fieldSpace_embedded_eq (cls : ClassId) :
    known.fieldSpace pointerSize user (.embedded cls) = known.space user cls :=
  LayoutM.answer_liftM _

/-- An embedded class is known and takes the space of an instance. -/
theorem fieldSpace_embedded {cls : ClassId}
    (h : known.fieldSpace pointerSize user (.embedded cls) = .ok field) :
    ∃ e, known cls = .ok (some e) ∧ field = ⟨e.size, e.alignment⟩ :=
  of_space_eq_ok ((fieldSpace_embedded_eq cls).symm.trans h)

/-- An array takes the space of its element as often as it is long. -/
theorem fieldSpace_array_eq (element : AttributeType) (length : Nat) :
    known.fieldSpace pointerSize user (.array element length) =
      known.fieldSpace pointerSize user element >>= fun space => space.arrayOf element length := by
  unfold fieldSpace
  rw [AttributeType.layout_array, LayoutM.answer_bind]
  simp only [LayoutM.answer_liftM]

/-- An array that has a layout has an element that has one. -/
theorem fieldSpace_array {element : AttributeType} {length : Nat}
    (h : known.fieldSpace pointerSize user (.array element length) = .ok field) :
    ∃ space, known.fieldSpace pointerSize user element = .ok space ∧
      space.arrayOf element length = .ok field := by
  rw [fieldSpace_array_eq] at h
  exact exists_eq_ok_of_bind h

/-- A type takes the same space for every class, and still takes it when more is known. -/
theorem fieldSpace_mono {known' : Knowledge} {user' : ClassId}
    (hle : ∀ cls e, known cls = .ok (some e) → known' cls = .ok (some e))
    (h : known.fieldSpace pointerSize user type = .ok field) :
    known'.fieldSpace pointerSize user' type = .ok field := by
  induction type generalizing field with
  | primitive scalar => exact h
  | object => exact h
  | pointer target => exact h
  | reference cls => exact h
  | embedded cls =>
    obtain ⟨e, he, rfl⟩ := fieldSpace_embedded h
    rw [fieldSpace_embedded_eq]
    exact bind_eq_ok (hle cls e he) rfl
  | array element length ih =>
    obtain ⟨space, hspace, harray⟩ := fieldSpace_array h
    rw [fieldSpace_array_eq]
    exact bind_eq_ok (ih hspace) harray

/-- The alignment of a type is a power of two, if those of the known classes are. -/
theorem IsAligned.isPower (hknown : known.IsAligned)
    (h : known.fieldSpace pointerSize user type = .ok field) : field.alignment.IsPower := by
  induction type generalizing field with
  | primitive scalar =>
    cases h
    exact scalar.isPower_alignment
  | object =>
    cases h
    exact Alignment.isPower_natural _
  | pointer target =>
    cases h
    exact Alignment.isPower_natural _
  | reference cls =>
    cases h
    exact Alignment.isPower_natural _
  | embedded cls =>
    obtain ⟨e, he, rfl⟩ := fieldSpace_embedded h
    exact hknown he
  | array element length ih =>
    obtain ⟨space, hspace, harray⟩ := fieldSpace_array h
    rw [(FieldLayout.arrayOf_ok harray).1]
    exact ih hspace

/-- A field that is filled takes space if the classes do that it may store in place. -/
theorem IsAligned.size_pos (hknown : known.IsAligned) (htakes : known.TakesSpace)
    (hpointer : 0 < pointerSize) (hfilled : type.IsFilled)
    (h : known.fieldSpace pointerSize user type = .ok field) : 0 < field.size := by
  induction type generalizing field with
  | primitive scalar =>
    cases h
    cases scalar <;> decide
  | object =>
    cases h
    exact hpointer
  | pointer target =>
    cases h
    exact hpointer
  | reference cls =>
    cases h
    exact hpointer
  | embedded cls =>
    obtain ⟨e, he, rfl⟩ := fieldSpace_embedded h
    exact htakes he
  | array element length ih =>
    obtain ⟨space, hspace, harray⟩ := fieldSpace_array h
    obtain ⟨-, stride, hstride, hsize⟩ := FieldLayout.arrayOf_ok harray
    have hpos := ih hfilled.2 hspace
    -- The stride of the elements is not smaller than one of them.
    have hrounded := Alignment.align_isRounded (hknown.isPower hspace) hstride
    rw [hsize]
    exact Nat.mul_pos (Nat.lt_of_lt_of_le hpos hrounded.le) hfilled.1

end Knowledge

namespace AttributeType

/-- A length that is read is positive. -/
theorem arrayLength_pos {whole digits : List Char} {length : Nat}
    (h : arrayLength whole digits = .ok length) : 0 < length := by
  unfold arrayLength at h
  split at h
  · cases h
  · cases h
  · next n hzero hsome =>
    cases h
    apply Nat.pos_of_ne_zero
    intro hn
    subst hn
    exact hzero rfl

/-- A name writes a type that is filled. -/
theorem isFilled_of_ofName {cs : List Char} {type : AttributeType} (h : ofName cs = .ok type) :
    type.IsFilled := by
  have hclass : ∀ (make : ClassId → AttributeType) {whole name : List Char},
      (∀ cls, (make cls).IsFilled) → (className whole name).map make = .ok type →
      type.IsFilled := by
    intro make whole name hmake hmap
    cases hname : className whole name with
    | error fault =>
      rw [hname] at hmap
      cases hmap
    | ok cls =>
      rw [hname] at hmap
      cases hmap
      exact hmake cls
  unfold ofName at h
  split at h
  · exact hclass reference (fun _ => trivial) h
  · split at h
    · cases h
      trivial
    · split at h
      · cases h
        trivial
      · exact hclass embedded (fun _ => trivial) h

/-- No text says an array without elements. -/
theorem isFilled_of_ofChars {cs : List Char} {type : AttributeType} (h : ofChars cs = .ok type) :
    type.IsFilled := by
  fun_induction ofChars cs generalizing type with
  | case1 cs target hlayer ih =>
    cases htarget : ofChars target with
    | error fault =>
      rw [htarget] at h
      cases h
    | ok t =>
      rw [htarget] at h
      cases h
      trivial
  | case2 => cases h
  | case3 cs element digits hlayer length hlength ih =>
    cases helement : ofChars element with
    | error fault =>
      rw [helement] at h
      cases h
    | ok t =>
      rw [helement] at h
      cases h
      exact ⟨arrayLength_pos hlength, ih helement⟩
  | case4 => exact isFilled_of_ofName h

/-- A text writes a type that is filled. -/
theorem isFilled_of_parse {text : String} {type : AttributeType} (h : parse text = .ok type) :
    type.IsFilled := by
  unfold parse at h
  split at h
  · next hchars =>
    cases h
    exact isFilled_of_ofChars hchars
  · cases h

end AttributeType

end ObjectLayout
