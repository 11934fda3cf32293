import ObjectLayout.Proofs.Placement

/-!
# Fields of any size

Over the natural numbers every type takes some space (`Knowledge.unboundedSpace`), and fields are
laid out one after another wherever they end (`Segment.introduceAll`). The bounded operations refuse
a type exactly when its size is no word (`Bounded.fieldSpace_isExact`), and a field exactly when it
does not end in the address space (`Bounded.placeFields_stops`): no intermediate result overflows
without need.

This is said of types in which no array lacks elements. The elements of an array without elements
take no space, and are sized all the same.
-/

set_option autoImplicit false

namespace ObjectLayout

open LayoutM (exists_eq_ok_of_bind bind_eq_ok)

/-! ## Exact answers -/

/-- The answer is the error of an overflow. -/
def Overflows {α : Type} (answer : Except LayoutError α) : Prop :=
  ∃ cls name type, answer = .error (.sizeOverflow cls name type)

/-- What overflows goes on to overflow. -/
theorem Overflows.bind {α β : Type} {x : Except LayoutError α} (h : Overflows x)
    (f : α → Except LayoutError β) : Overflows (x >>= f) := by
  obtain ⟨cls, name, type, rfl⟩ := h
  exact ⟨cls, name, type, rfl⟩

/-- The answer is a value if its size is a word, and the error of an overflow if not. -/
structure IsExact {α : Type} (size : Nat) (value : α) (answer : Except LayoutError α) : Prop where
  fits : size < addressSpace → answer = .ok value
  overflows : addressSpace ≤ size → Overflows answer

/-- An answer that gives a value of a size that fits is exact. -/
theorem IsExact.of_lt {α : Type} {size : Nat} {value : α} {answer : Except LayoutError α}
    (hsize : size < addressSpace) (h : answer = .ok value) : IsExact size value answer where
  fits := fun _ => h
  overflows := fun hle => absurd hsize (Nat.not_lt.2 hle)

/-- An exact answer gives a value only if its size fits. -/
theorem IsExact.lt_of_eq_ok {α : Type} {size : Nat} {value a : α} {answer : Except LayoutError α}
    (h : IsExact size value answer) (ha : answer = .ok a) : size < addressSpace := by
  apply Nat.lt_of_not_le
  intro hle
  obtain ⟨_, _, _, herror⟩ := h.overflows hle
  rw [ha] at herror
  cases herror

/-- An exact answer that is mapped is exact. -/
theorem IsExact.map {α β : Type} {size : Nat} {value : α} {answer : Except LayoutError α}
    (h : IsExact size value answer) (f : α → β) : IsExact size (f value) (answer.map f) where
  fits := fun hsize => by rw [h.fits hsize]; rfl
  overflows := fun hsize => by
    obtain ⟨cls, name, type, herror⟩ := h.overflows hsize
    rw [herror]
    exact ⟨cls, name, type, rfl⟩

/-! ## Spaces of any size -/

/-- A sound class whose alignment is one of addresses. -/
structure Measured (d : Descriptor) : Prop extends Sound d where
  alignment_le : d.alignment.value ≤ addressSpace

/-- Of these classes, a knowledge that is bounded by words tells what an unbounded one tells, as far
as it fits. -/
structure Bounded (within : ClassId → Prop) (known classes : Knowledge) : Prop where
  isExact : ∀ {cls e}, within cls → classes cls = .ok (some e) → IsExact e.size (some e) (known cls)
  plain : ∀ {cls}, classes cls = .ok none → known cls = .ok none

/-- A type that is filled, and that stores none but these classes in place. -/
def AttributeType.IsFilledFrom (within : ClassId → Prop) (type : AttributeType) : Prop :=
  type.IsFilled ∧ ∀ cls, type.embeddedClass? = some cls → within cls

namespace Knowledge

/-- The space of a type, however large it is. -/
def unboundedSpace (known : Knowledge) (pointerSize : Nat) (user : ClassId) : SpaceOf
  | .primitive scalar => .ok scalar.layout
  | .object | .pointer _ | .reference _ => .ok (.pointer pointerSize)
  | .embedded cls => known.space user cls
  | .array element length => do
    let space ← known.unboundedSpace pointerSize user element
    return ⟨space.alignment.roundUp space.size * length, space.alignment⟩

/-- Every class that is known is measured. -/
def IsMeasured (known : Knowledge) : Prop :=
  ∀ ⦃cls e⦄, known cls = .ok (some e) → Measured e

variable {known classes : Knowledge} {pointerSize : Nat} {user : ClassId} {type : AttributeType}
  {field : FieldLayout}

/-- A type has the same unbounded space when more is known. -/
theorem unboundedSpace_mono (h : known.Extends classes)
    (hspace : classes.unboundedSpace pointerSize user type = .ok field) :
    known.unboundedSpace pointerSize user type = .ok field := by
  induction type generalizing field with
  | primitive scalar => exact hspace
  | object => exact hspace
  | pointer target => exact hspace
  | reference cls => exact hspace
  | embedded cls =>
    obtain ⟨e, he, rfl⟩ := of_space_eq_ok hspace
    exact bind_eq_ok (h he) rfl
  | array element length ih =>
    obtain ⟨space, helement, hspace⟩ := exists_eq_ok_of_bind hspace
    exact bind_eq_ok (ih helement) hspace

/-- A class that is measured is aligned. -/
theorem IsMeasured.isAligned (hknown : known.IsMeasured) : known.IsAligned :=
  fun _ _ h => (hknown h).isPower

/-- What fits takes the same space without a limit. -/
theorem unboundedSpace_of_fieldSpace (hknown : known.IsAligned)
    (hle : ∀ ⦃cls e⦄, known cls = .ok (some e) → classes cls = .ok (some e))
    (h : known.fieldSpace pointerSize user type = .ok field) :
    classes.unboundedSpace pointerSize user type = .ok field := by
  induction type generalizing field with
  | primitive scalar => exact h
  | object => exact h
  | pointer target => exact h
  | reference cls => exact h
  | embedded cls =>
    obtain ⟨e, he, rfl⟩ := fieldSpace_embedded h
    exact bind_eq_ok (hle he) rfl
  | array element length ih =>
    obtain ⟨space, hspace, harray⟩ := fieldSpace_array h
    obtain ⟨halignment, stride, hstride, hsize⟩ := FieldLayout.arrayOf_ok harray
    have hpower := hknown.isPower hspace
    have hrounded := (Alignment.align_isRounded hpower hstride).unique
      (Alignment.roundUp_isRounded hpower _)
    refine bind_eq_ok (ih hspace) ?_
    rw [← hrounded, ← hsize, ← halignment]
    rfl

/-- The alignment of a measured type is a power of two among the addresses. -/
theorem IsMeasured.alignment (hknown : known.IsMeasured) (hpointer : pointerSize < addressSpace)
    (h : known.unboundedSpace pointerSize user type = .ok field) :
    field.alignment.IsPower ∧ field.alignment.value ≤ addressSpace := by
  have hnatural := Alignment.value_natural_le (Nat.le_of_lt hpointer)
  induction type generalizing field with
  | primitive scalar =>
    cases h
    exact ⟨scalar.isPower_alignment, by cases scalar <;> decide⟩
  | object =>
    cases h
    exact ⟨Alignment.isPower_natural _, hnatural⟩
  | pointer target =>
    cases h
    exact ⟨Alignment.isPower_natural _, hnatural⟩
  | reference cls =>
    cases h
    exact ⟨Alignment.isPower_natural _, hnatural⟩
  | embedded cls =>
    obtain ⟨e, he, rfl⟩ := of_space_eq_ok h
    exact ⟨(hknown he).isPower, (hknown he).alignment_le⟩
  | array element length ih =>
    obtain ⟨space, hspace, h⟩ := exists_eq_ok_of_bind h
    cases h
    have helement := ih hspace
    exact helement

end Knowledge

/-- The space of an array that is not empty is exact. -/
theorem FieldLayout.arrayOf_isExact {space : FieldLayout} (hpower : space.alignment.IsPower)
    (hle : space.alignment.value ≤ addressSpace) (element : AttributeType) {length : Nat}
    (hlength : 0 < length) :
    IsExact (space.alignment.roundUp space.size * length)
      ⟨space.alignment.roundUp space.size * length, space.alignment⟩
      (space.arrayOf element length) := by
  have hstride : space.alignment.roundUp space.size ≤
      space.alignment.roundUp space.size * length := Nat.le_mul_of_pos_right _ hlength
  unfold arrayOf arraySize?
  rw [Alignment.align_eq_fit? hpower hle]
  constructor
  · intro hsize
    simp [Word.fit?, Word.mul?, hsize, Nat.lt_of_le_of_lt hstride hsize]
  · intro hsize
    by_cases hfits : space.alignment.roundUp space.size < addressSpace
    · simp [Word.fit?, Word.mul?, hfits, Nat.not_lt.2 hsize, Overflows]
    · simp [Word.fit?, hfits, Overflows]

section Spaces

variable {within : ClassId → Prop} {known classes : Knowledge} {pointerSize : Nat} {user : ClassId}

/-- The space of a type is refused exactly when its size is no word. -/
theorem Bounded.fieldSpace_isExact (h : Bounded within known classes)
    (hclasses : classes.IsMeasured) (hpointer : pointerSize < addressSpace) {type : AttributeType}
    (hfilled : type.IsFilledFrom within) {field : FieldLayout}
    (hspace : classes.unboundedSpace pointerSize user type = .ok field) :
    IsExact field.size field (known.fieldSpace pointerSize user type) := by
  induction type generalizing field with
  | primitive scalar =>
    cases hspace
    exact .of_lt (by cases scalar <;> decide) rfl
  | object =>
    cases hspace
    exact .of_lt hpointer rfl
  | pointer target =>
    cases hspace
    exact .of_lt hpointer rfl
  | reference cls =>
    cases hspace
    exact .of_lt hpointer rfl
  | embedded cls =>
    obtain ⟨e, he, rfl⟩ := Knowledge.of_space_eq_ok hspace
    rw [Knowledge.fieldSpace_embedded_eq]
    have hexact := h.isExact (hfilled.2 cls rfl) he
    exact ⟨fun hsize => bind_eq_ok (hexact.fits hsize) rfl,
      fun hsize => (hexact.overflows hsize).bind _⟩
  | array element length ih =>
    obtain ⟨space, helement, hspace⟩ := exists_eq_ok_of_bind hspace
    cases hspace
    obtain ⟨hspacePower, hspaceLe⟩ := hclasses.alignment hpointer helement
    have hexact := ih ⟨hfilled.1.2, hfilled.2⟩ helement
    have harray := FieldLayout.arrayOf_isExact hspacePower hspaceLe element hfilled.1.1
    have hround := (Alignment.roundUp_isRounded hspacePower space.size).le
    have hstride : space.alignment.roundUp space.size ≤
        space.alignment.roundUp space.size * length := Nat.le_mul_of_pos_right _ hfilled.1.1
    rw [Knowledge.fieldSpace_array_eq]
    -- An element that is too large makes the array too large.
    by_cases helements : space.size < addressSpace
    · rw [hexact.fits helements]
      exact harray
    · refine ⟨fun hsize => absurd ?_ helements, fun _ => (hexact.overflows ?_).bind _⟩
      · dsimp only at hsize
        omega
      · omega

end Spaces

/-! ## Fields of any size -/

/-- The address behind the last byte of a variable. -/
def Variable.stop (v : Variable) : Nat := v.offset.value + v.size

/-- The attribute does not end in the address space. -/
def endsOutside (entry : String × Variable) : Bool := decide (addressSpace ≤ entry.2.stop)

/-- The answer is a value if all attributes end in the address space, and if not, it is an overflow
that is put down to the first one which does not. -/
structure StopsAtFirst {α : Type} (cls : ClassId) (own : List (String × Variable)) (value : α)
    (answer : Except LayoutError α) : Prop where
  fits : own.find? endsOutside = none → answer = .ok value
  names : ∀ entry, own.find? endsOutside = some entry →
    ∃ text, answer = .error (.sizeOverflow cls entry.1 text)

section StopsAtFirst

variable {α : Type} {cls : ClassId} {entry : String × Variable} {rest : List (String × Variable)}
  {value : α} {answer : Except LayoutError α}

/-- Where there are no fields, nothing stops. -/
theorem StopsAtFirst.nil (h : answer = .ok value) : StopsAtFirst cls [] value answer where
  fits := fun _ => h
  names := fun _ h => nomatch h

/-- A field that ends in the address space does not stop what follows. -/
theorem StopsAtFirst.inside (hstop : entry.2.stop < addressSpace)
    (h : StopsAtFirst cls rest value answer) : StopsAtFirst cls (entry :: rest) value answer := by
  have hskip : (entry :: rest).find? endsOutside = rest.find? endsOutside :=
    List.find?_cons_of_neg (by simp [endsOutside, hstop])
  constructor
  · rw [hskip]
    exact h.fits
  · rw [hskip]
    exact h.names

/-- The first field that ends outside is where the answer stops. -/
theorem StopsAtFirst.outside (hstop : addressSpace ≤ entry.2.stop) {text : String}
    (h : answer = .error (.sizeOverflow cls entry.1 text)) :
    StopsAtFirst cls (entry :: rest) value answer := by
  have hfirst : (entry :: rest).find? endsOutside = some entry :=
    List.find?_cons_of_pos (decide_eq_true hstop)
  constructor
  · rw [hfirst]
    exact fun h => nomatch h
  · rw [hfirst]
    rintro first ⟨⟩
    exact ⟨text, h⟩

end StopsAtFirst

section Fields

variable {space space' : SpaceOf} {segment last : Segment} {entries : List (String × AttributeType)}

/-- Fields are introduced in the same way when more types have a space. -/
theorem Segment.introduceAll_mono
    (hspace : ∀ {type field}, space type = .ok field → space' type = .ok field)
    (h : segment.introduceAll space entries = .ok last) :
    segment.introduceAll space' entries = .ok last := by
  induction entries generalizing segment with
  | nil => exact h
  | cons entry rest ih =>
    obtain ⟨name, type⟩ := entry
    obtain ⟨field, hfield, h⟩ := exists_eq_ok_of_bind h
    exact bind_eq_ok (hspace hfield) (ih h)

/-- The field that is introduced last is remembered. -/
theorem Segment.lastOwn_of_introduceAll (h : segment.introduceAll space entries = .ok last) :
    last.lastOwn = entries.getLast?.or segment.lastOwn := by
  induction entries generalizing segment with
  | nil =>
    cases h
    rfl
  | cons entry rest ih =>
    obtain ⟨name, type⟩ := entry
    obtain ⟨field, -, h⟩ := exists_eq_ok_of_bind h
    rw [ih h, List.getLast?_cons]
    cases rest.getLast? <;> rfl

/-- A field is refused exactly when it does not end in the address space. -/
theorem Draft.introduce_eq (draft : Draft) (segment : Segment) (name : String)
    (type : AttributeType) {field : FieldLayout} (hpower : field.alignment.IsPower)
    (hle : field.alignment.value ≤ addressSpace) :
    draft.introduce segment name type field =
      if (segment.introduce name type field).cursor.value < addressSpace then
        .ok (segment.introduce name type field)
      else .error (draft.overflow name type) := by
  unfold introduce Offset.alignTo Offset.advance Word.add? Segment.introduce
  rw [Alignment.align_eq_fit? hpower hle]
  by_cases hstart : field.alignment.roundUp segment.cursor.value < addressSpace
  · by_cases hstop : field.alignment.roundUp segment.cursor.value + field.size < addressSpace
    · simp [Word.fit?, hstart, hstop, bind, Except.bind, pure, Except.pure]
    · simp [Word.fit?, hstart, hstop, bind, Except.bind]
  · have hstop : ¬ field.alignment.roundUp segment.cursor.value + field.size < addressSpace := by
      omega
    simp [Word.fit?, hstart, hstop, bind, Except.bind]

end Fields

section Placing

variable {within : ClassId → Prop} {known classes : Knowledge} {pointerSize : Nat} {user : ClassId}
  {segment last : Segment} {entries : List (String × AttributeType)}

/-- An attribute is placed if it ends in the address space, and refused if it does not. -/
theorem Bounded.placeField_isExact (h : Bounded within known classes)
    (hclasses : classes.IsMeasured) (hpointer : pointerSize < addressSpace) {draft : Draft}
    (segment : Segment) {name : String} {type : AttributeType}
    (hfilled : type.IsFilledFrom within) (hnew : draft.inherited? name = none)
    {field : FieldLayout}
    (hspace : classes.unboundedSpace pointerSize user type = .ok field) :
    ((segment.introduce name type field).cursor.value < addressSpace →
      (draft.placeField (known.env pointerSize user) (fun _ => pure ()) segment name type).answer =
        .ok (segment.introduce name type field)) ∧
    (addressSpace ≤ (segment.introduce name type field).cursor.value → ∃ text,
      (draft.placeField (known.env pointerSize user) (fun _ => pure ()) segment name type).answer =
        .error (.sizeOverflow draft.id name text)) := by
  obtain ⟨hpower, hle⟩ := hclasses.alignment hpointer hspace
  have hexact := h.fieldSpace_isExact hclasses hpointer hfilled hspace
  have hstop : field.size ≤ (segment.introduce name type field).cursor.value :=
    Nat.le_add_left _ _
  have hsized : (draft.sizeField (known.env pointerSize user) name type).answer =
      (known.fieldSpace pointerSize user type).mapError (LayoutError.inAttribute draft.id name) :=
    LayoutM.answer_adapt _ _
  rw [Draft.answer_placeField, hnew, hsized]
  constructor
  · intro hfits
    rw [hexact.fits (Nat.lt_of_le_of_lt hstop hfits)]
    show draft.introduce segment name type field = _
    rw [draft.introduce_eq segment name type hpower hle, if_pos hfits]
  · intro hover
    by_cases hsize : field.size < addressSpace
    · rw [hexact.fits hsize]
      show ∃ text, draft.introduce segment name type field = _
      rw [draft.introduce_eq segment name type hpower hle, if_neg (Nat.not_lt.2 hover)]
      exact ⟨_, rfl⟩
    · obtain ⟨_, _, text, herror⟩ := hexact.overflows (Nat.not_lt.1 hsize)
      rw [herror]
      exact ⟨text, rfl⟩

/-- Attributes are placed up to the first one that does not end in the address space. -/
theorem Bounded.placeFields_stops (h : Bounded within known classes)
    (hclasses : classes.IsMeasured) (hpointer : pointerSize < addressSpace) (draft : Draft)
    (hfilled : ∀ entry ∈ entries, entry.2.IsFilledFrom within)
    (hnew : ∀ entry ∈ entries, draft.inherited? entry.1 = none)
    (hlast : segment.introduceAll (classes.unboundedSpace pointerSize user) entries = .ok last)
    {own : List (String × Variable)}
    (hown : own.map (fun entry => (entry.1, entry.2.type)) = entries)
    (hpacked : Packed (classes.unboundedSpace pointerSize user) segment.cursor.value own
      last.cursor.value) :
    StopsAtFirst draft.id own last (draft.placeFields (known.env pointerSize user)
      (fun _ => pure ()) segment entries).answer := by
  induction own generalizing segment entries with
  | nil =>
    subst hown
    cases hlast
    exact .nil rfl
  | cons entry rest ih =>
    obtain ⟨name, v⟩ := entry
    subst hown
    obtain ⟨field, hfield, hlast⟩ := exists_eq_ok_of_bind hlast
    cases hpacked with
    | @cons _ _ _ _ space _ hstorage hspace hsize hoffset hrest =>
      have hsame : space = field := Except.ok.inj (hspace.symm.trans hfield)
      subst hsame
      -- The field ends where the packed one does.
      have hstart := hoffset.unique
        (Alignment.roundUp_isRounded (hclasses.alignment hpointer hspace).1 _)
      have hstop : v.stop = (segment.introduce name v.type space).cursor.value := by
        unfold Variable.stop
        rw [hstart, hsize]
        rfl
      obtain ⟨hplaced, hrefused⟩ := h.placeField_isExact hclasses hpointer segment
        (hfilled _ List.mem_cons_self) (hnew _ List.mem_cons_self) hspace
      rw [← hstop] at hplaced hrefused
      rw [List.map_cons, Draft.placeFields, LayoutM.answer_bind]
      by_cases hfits : v.stop < addressSpace
      · rw [hplaced hfits]
        refine .inside hfits (ih (fun entry hmem => hfilled entry (List.mem_cons_of_mem _ hmem))
          (fun entry hmem => hnew entry (List.mem_cons_of_mem _ hmem)) hlast rfl ?_)
        rw [← hstop]
        exact hrest
      · obtain ⟨text, herror⟩ := hrefused (Nat.not_lt.1 hfits)
        rw [herror]
        exact .outside (Nat.not_lt.1 hfits) rfl

end Placing

end ObjectLayout
