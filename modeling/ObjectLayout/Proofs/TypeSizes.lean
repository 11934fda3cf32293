import ObjectLayout.Proofs.FieldSpace
import ObjectLayout.Proofs.Rounding

/-!
# Sizes of types

A space is whole if its size is a positive multiple of its alignment. Arrays of whole elements have
no gaps, so that rounding the size of an element up changes nothing and an array is whole again.
Hence the size of a type is a product (`exec_layout`): that of the lengths of all arrays, and of the
size of the first type that is no array. It is refused where the target refuses this type, and where
the product is no word (`sizedExactly_of_isWhole`).
-/

set_option autoImplicit false

namespace ObjectLayout

/-! ## Whole spaces -/

namespace FieldLayout

/-- The size is positive, a word, and a multiple of the alignment, which is a power of two. -/
structure IsWhole (space : FieldLayout) : Prop where
  pos : 0 < space.size
  lt : space.size < addressSpace
  isPower : space.alignment.IsPower
  dvd : space.alignment.value ∣ space.size

variable {space : FieldLayout}

/-- Elements that are whole stand one after another without gaps. -/
theorem IsWhole.align_eq (h : space.IsWhole) : space.alignment.align space.size = some space.size :=
  have hle := Nat.le_of_dvd h.pos h.dvd
  (Alignment.obtained_iff.2 ⟨h.isPower, Nat.lt_of_le_of_lt hle h.lt⟩).align_of_dvd h.dvd h.lt

/-- A whole space that is repeated is whole. -/
theorem IsWhole.repeated (h : space.IsWhole) {count : Nat} (hcount : 0 < count)
    (hlt : count * space.size < addressSpace) : IsWhole ⟨count * space.size, space.alignment⟩ where
  pos := Nat.mul_pos hcount h.pos
  lt := hlt
  isPower := h.isPower
  dvd := Nat.dvd_mul_left_of_dvd h.dvd count

/-- An array of whole elements is refused exactly when the product is no word. -/
theorem IsWhole.arrayOf_eq (h : space.IsWhole) (element : AttributeType) (length : Nat) :
    space.arrayOf element length =
      if addressSpace ≤ length * space.size then
        .error (.sizeOverflow ⟨""⟩ "" (AttributeType.array element length).text)
      else .ok ⟨length * space.size, space.alignment⟩ := by
  unfold arrayOf arraySize?
  rw [h.align_eq, Option.bind_some, Word.mul?, Nat.mul_comm]
  by_cases hover : addressSpace ≤ length * space.size
  · rw [Word.fit?_eq_none_iff.2 hover, if_pos hover]
  · rw [Word.fit?_eq_some_iff.2 ⟨Nat.not_le.1 hover, rfl⟩, if_neg hover]

/-- A pointer is whole. -/
theorem isWhole_pointer {pointerSize : Nat} (hpower : pointerSize.isPowerOfTwo)
    (hlt : pointerSize < addressSpace) : (pointer pointerSize).IsWhole := by
  obtain ⟨k, rfl⟩ := hpower
  refine ⟨Nat.two_pow_pos k, hlt, Alignment.isPower_natural _, ?_⟩
  show (Alignment.natural (2 ^ k)).value ∣ 2 ^ k
  simp [Alignment.natural_two_pow]

end FieldLayout

/-- Complex numbers are whole too, although they are larger than they are aligned. -/
theorem PrimitiveType.isWhole_layout (scalar : PrimitiveType) : scalar.layout.IsWhole where
  pos := by cases scalar <;> decide
  lt := by cases scalar <;> decide
  isPower := scalar.isPower_alignment
  dvd := by cases scalar <;> decide

/-! ## Arrays of arrays -/

namespace AttributeType

/-- The first type that is no array, seen from the outside. -/
def innermost : AttributeType → AttributeType
  | array element _ => element.innermost
  | other => other

/-- The lengths of the arrays around the innermost type. -/
def lengths : AttributeType → List Nat
  | array element length => length :: element.lengths
  | primitive _ | object | pointer _ | reference _ | embedded _ => []

/-- The arrays around the innermost type, from the inside to the outside. -/
def arraysAround : AttributeType → List AttributeType
  | array element length => element.arraysAround ++ [array element length]
  | primitive _ | object | pointer _ | reference _ | embedded _ => []

/-- The size of a type whose innermost type has that size, over the natural numbers. -/
def unboundedSize (type : AttributeType) (size : Nat) : Nat :=
  type.lengths.prod * size

/-- The innermost array that overflows where the innermost type has that size. -/
def overflowing? (type : AttributeType) (size : Nat) : Option AttributeType :=
  type.arraysAround.find? fun part => addressSpace ≤ part.unboundedSize size

/-- The space of a type whose innermost type takes the given space. -/
def spaceAround (type : AttributeType) (inner : FieldLayout) : Except LayoutError FieldLayout :=
  match type.overflowing? inner.size with
  | some large => .error (.sizeOverflow ⟨""⟩ "" large.text)
  | none => .ok ⟨type.unboundedSize inner.size, inner.alignment⟩

variable {type element : AttributeType} {length size : Nat} {inner : FieldLayout}

/-- The size of an array is that of its element, as often as it is long. -/
theorem unboundedSize_array (element : AttributeType) (length size : Nat) :
    (array element length).unboundedSize size = length * element.unboundedSize size := by
  simp only [unboundedSize, lengths, List.prod_cons, Nat.mul_assoc]

/-- In an array the element overflows first, and then the array itself. -/
theorem overflowing?_array (element : AttributeType) (length size : Nat) :
    (array element length).overflowing? size = (element.overflowing? size).or
      (if addressSpace ≤ length * element.unboundedSize size then some (array element length)
        else none) := by
  simp only [overflowing?, arraysAround, List.find?_append, List.find?_singleton,
    unboundedSize_array, decide_eq_true_eq]

/-- The lengths of the arrays in a filled type have a positive product. -/
theorem IsFilled.prod_pos (h : type.IsFilled) : 0 < type.lengths.prod := by
  induction type with
  | array element length ih =>
    rw [lengths, List.prod_cons]
    exact Nat.mul_pos h.1 (ih h.2)
  | primitive | object | pointer | reference | embedded => exact Nat.one_pos

/-- An array overflows exactly when the type does, since no array makes it smaller. -/
theorem IsFilled.overflowing?_eq_none_iff (h : type.IsFilled) (hsize : size < addressSpace) :
    type.overflowing? size = none ↔ type.unboundedSize size < addressSpace := by
  induction type with
  | array element length ih =>
    have hle : element.unboundedSize size ≤ length * element.unboundedSize size :=
      Nat.le_mul_of_pos_left _ h.1
    rw [overflowing?_array, Option.or_eq_none_iff, ih h.2, unboundedSize_array]
    constructor
    · rintro ⟨-, hnone⟩
      by_contra hover
      simp [Nat.not_lt.1 hover] at hnone
    · intro hlt
      exact ⟨Nat.lt_of_le_of_lt hle hlt, if_neg (Nat.not_le.2 hlt)⟩
  | primitive | object | pointer | reference | embedded =>
    simpa [overflowing?, arraysAround, unboundedSize, lengths] using hsize

/-- A filled type around a whole space is whole, where it fits. -/
theorem IsFilled.isWhole (h : type.IsFilled) (hinner : inner.IsWhole)
    (hlt : type.unboundedSize inner.size < addressSpace) :
    FieldLayout.IsWhole ⟨type.unboundedSize inner.size, inner.alignment⟩ :=
  hinner.repeated h.prod_pos hlt

/-- Around the innermost type there are no arrays. -/
theorem spaceAround_innermost (type : AttributeType) (inner : FieldLayout) :
    type.innermost.spaceAround inner = .ok inner := by
  induction type with
  | array element length ih => exact ih
  | primitive | object | pointer | reference | embedded =>
    simp [innermost, spaceAround, overflowing?, arraysAround, unboundedSize, lengths]

/-- The space of an array, from that of its elements. -/
theorem spaceAround_array (h : element.IsFilled) (hinner : inner.IsWhole) :
    (array element length).spaceAround inner =
      element.spaceAround inner >>= fun space => space.arrayOf element length := by
  unfold spaceAround
  rw [overflowing?_array, unboundedSize_array]
  cases hover : element.overflowing? inner.size with
  | some large => rfl
  | none =>
    have hwhole := h.isWhole hinner ((h.overflowing?_eq_none_iff hinner.lt).1 hover)
    show _ = FieldLayout.arrayOf ⟨element.unboundedSize inner.size, inner.alignment⟩ element length
    rw [hwhole.arrayOf_eq, Option.none_or]
    by_cases hlarge : addressSpace ≤ length * element.unboundedSize inner.size
    · simp only [hlarge, if_true]
    · simp only [hlarge, if_false]

/-- A filled type has a layout exactly if its size is a word, and then that size. -/
theorem IsFilled.spaceAround_eq_ok_iff (h : type.IsFilled) (hinner : inner.size < addressSpace)
    {space : FieldLayout} :
    type.spaceAround inner = .ok space ↔ type.unboundedSize inner.size < addressSpace ∧
      space = ⟨type.unboundedSize inner.size, inner.alignment⟩ := by
  rw [← h.overflowing?_eq_none_iff hinner]
  unfold spaceAround
  cases type.overflowing? inner.size with
  | some large => simp
  | none => simp [eq_comm]

/-- A filled type has no layout exactly if its size is no word, and the innermost array that is too
large is named. -/
theorem IsFilled.spaceAround_eq_error_iff (h : type.IsFilled) (hinner : inner.size < addressSpace)
    {error : LayoutError} :
    type.spaceAround inner = .error error ↔ addressSpace ≤ type.unboundedSize inner.size ∧
      ∃ large, type.overflowing? inner.size = some large ∧
        error = .sizeOverflow ⟨""⟩ "" large.text := by
  rw [← Nat.not_lt, ← h.overflowing?_eq_none_iff hinner]
  unfold spaceAround
  cases type.overflowing? inner.size with
  | some large => simp [eq_comm]
  | none => simp

end AttributeType

/-! ## Targets -/

namespace TypeEnv

variable {σ : Type} {env : TypeEnv σ} {s s' : σ} {type : AttributeType} {inner : FieldLayout}
  {error : LayoutError}

/-- A target whose pointers take a whole space, and so do the classes that it answers for in that
state. -/
structure IsWhole (env : TypeEnv σ) (s : σ) : Prop where
  pointer : env.pointerSize.isPowerOfTwo
  pointer_lt : env.pointerSize < addressSpace
  embedded : ∀ {cls space s'}, (env.embedded cls).exec s = (.ok space, s') → space.IsWhole

/-- The space that a type takes which is no array, and the state that is left. -/
inductive Takes (env : TypeEnv σ) (s : σ) : AttributeType → FieldLayout → σ → Prop where
  | primitive (scalar : PrimitiveType) :
      Takes env s (.primitive scalar) ⟨scalar.size, scalar.alignment⟩ s
  | object : Takes env s .object (.pointer env.pointerSize) s
  | pointer (target : AttributeType) : Takes env s (.pointer target) (.pointer env.pointerSize) s
  | reference (cls : ClassId) : Takes env s (.reference cls) (.pointer env.pointerSize) s
  | embedded {cls : ClassId} {space : FieldLayout} {s' : σ}
      (h : (env.embedded cls).exec s = (.ok space, s')) : Takes env s (.embedded cls) space s'

/-- In a whole target every innermost type is whole. -/
theorem IsWhole.of_takes (h : env.IsWhole s) (ht : env.Takes s type inner s') : inner.IsWhole := by
  cases ht with
  | primitive scalar => exact scalar.isWhole_layout
  | object | pointer | reference => exact FieldLayout.isWhole_pointer h.pointer h.pointer_lt
  | embedded hspace => exact h.embedded hspace

/-- The innermost type has a layout exactly if the target takes it. -/
theorem exec_innermost_eq_ok_iff :
    (type.innermost.layout env).exec s = (.ok inner, s') ↔ env.Takes s type.innermost inner s' := by
  induction type with
  | array element length ih => exact ih
  | primitive | object | pointer | reference =>
    constructor
    · intro h
      cases h
      constructor
    · intro h
      cases h
      rfl
  | embedded cls => exact ⟨.embedded, fun | .embedded h => h⟩

/-- The innermost type has no layout exactly if it is a class that the target refuses. -/
theorem exec_innermost_eq_error_iff :
    (type.innermost.layout env).exec s = (.error error, s') ↔
      ∃ cls, type.innermost = .embedded cls ∧ (env.embedded cls).exec s = (.error error, s') := by
  induction type with
  | array element length ih => exact ih
  | embedded cls => exact ⟨fun h => ⟨cls, rfl, h⟩, fun | ⟨_, rfl, h⟩ => h⟩
  | primitive | object | pointer | reference =>
    exact ⟨(fun h => nomatch h), fun | ⟨_, h, _⟩ => nomatch h⟩

/-- A type without arrays is laid out as its innermost type is. -/
theorem exec_layout_of_innermost_eq (h : type.innermost = type) :
    (type.layout env).exec s =
      (type.innermost.layout env >>= fun inner => liftM (type.spaceAround inner)).exec s := by
  have hself := type.spaceAround_innermost
  rw [h] at hself ⊢
  rw [LayoutM.exec_bind]
  rcases (type.layout env).exec s with ⟨error | inner, s'⟩
  · rfl
  · simp only [hself, LayoutM.exec_liftM]

/-- The innermost type is asked for once, and the arrays around it multiply its size. -/
theorem IsWhole.exec_layout (h : env.IsWhole s) (hfilled : type.IsFilled) :
    (type.layout env).exec s =
      (type.innermost.layout env >>= fun inner => liftM (type.spaceAround inner)).exec s := by
  induction type with
  | array element length ih =>
    rw [AttributeType.layout_array, LayoutM.exec_bind, ih hfilled.2, LayoutM.exec_bind,
      LayoutM.exec_bind, AttributeType.innermost]
    rcases hrun : (element.innermost.layout env).exec s with ⟨error | inner, s'⟩
    · rfl
    · have hinner := h.of_takes (exec_innermost_eq_ok_iff.1 hrun)
      simp only [LayoutM.exec_liftM, AttributeType.spaceAround_array hfilled.2 hinner]
      cases element.spaceAround inner <;> rfl
  | primitive | object | pointer | reference | embedded =>
    exact exec_layout_of_innermost_eq rfl

/-- A filled type is answered as its innermost type is, or as the arrays around that make it. -/
theorem IsWhole.exec_layout_eq_iff (h : env.IsWhole s) (hfilled : type.IsFilled)
    {answer : Except LayoutError FieldLayout} :
    (type.layout env).exec s = (answer, s') ↔
      (∃ error, answer = .error error ∧ ∃ cls, type.innermost = .embedded cls ∧
        (env.embedded cls).exec s = (.error error, s')) ∨
      ∃ inner, env.Takes s type.innermost inner s' ∧ type.spaceAround inner = answer := by
  rw [h.exec_layout hfilled, LayoutM.exec_bind_liftM_eq_iff]
  simp only [exec_innermost_eq_error_iff, exec_innermost_eq_ok_iff]

/-- A filled type has a layout exactly if its innermost type has one and the product of lengths
fits. -/
theorem IsWhole.exec_layout_eq_ok_iff (h : env.IsWhole s) (hfilled : type.IsFilled)
    {space : FieldLayout} :
    (type.layout env).exec s = (.ok space, s') ↔
      ∃ inner, env.Takes s type.innermost inner s' ∧
        type.unboundedSize inner.size < addressSpace ∧
        space = ⟨type.unboundedSize inner.size, inner.alignment⟩ := by
  simp only [h.exec_layout_eq_iff hfilled, reduceCtorEq, false_and, exists_false, false_or]
  apply exists_congr
  intro inner
  apply and_congr_right
  intro htakes
  exact hfilled.spaceAround_eq_ok_iff (h.of_takes htakes).lt

/-- A filled type has no layout exactly if its innermost type has none or the product of lengths
does not fit. -/
theorem IsWhole.exec_layout_eq_error_iff (h : env.IsWhole s) (hfilled : type.IsFilled) :
    (type.layout env).exec s = (.error error, s') ↔
      (∃ cls, type.innermost = .embedded cls ∧ (env.embedded cls).exec s = (.error error, s')) ∨
      ∃ inner, env.Takes s type.innermost inner s' ∧
        addressSpace ≤ type.unboundedSize inner.size ∧
        ∃ large, type.overflowing? inner.size = some large ∧
          error = .sizeOverflow ⟨""⟩ "" large.text := by
  simp only [h.exec_layout_eq_iff hfilled, Except.error.injEq, exists_eq_left']
  apply or_congr_right
  apply exists_congr
  intro inner
  apply and_congr_right
  intro htakes
  exact hfilled.spaceAround_eq_error_iff (h.of_takes htakes).lt

end TypeEnv

/-! ## Behind pointers and references -/

namespace AttributeType

/-- Two types that differ in nothing but what stands behind their pointers and references. -/
inductive AlikeInPlace : AttributeType → AttributeType → Prop where
  | primitive (scalar : PrimitiveType) : AlikeInPlace (primitive scalar) (primitive scalar)
  | object : AlikeInPlace object object
  | pointer (target target' : AttributeType) : AlikeInPlace (pointer target) (pointer target')
  | array {element element' : AttributeType} (h : AlikeInPlace element element') (length : Nat) :
      AlikeInPlace (array element length) (array element' length)
  | reference (cls cls' : ClassId) : AlikeInPlace (reference cls) (reference cls')
  | embedded (cls : ClassId) : AlikeInPlace (embedded cls) (embedded cls)

/-- Two answers that differ in nothing but the text of the array that overflows. -/
inductive AnsweredAlike :
    Except LayoutError FieldLayout → Except LayoutError FieldLayout → Prop where
  | same (answer : Except LayoutError FieldLayout) : AnsweredAlike answer answer
  | overflow {large large' : AttributeType} (h : large.AlikeInPlace large') :
      AnsweredAlike (.error (.sizeOverflow ⟨""⟩ "" large.text))
        (.error (.sizeOverflow ⟨""⟩ "" large'.text))

variable {σ : Type} {env env' : TypeEnv σ} {s : σ} {type type' : AttributeType}

/-- Arrays of types that are alike in place are answered alike. -/
theorem AlikeInPlace.arrayOf {element element' : AttributeType} (h : element.AlikeInPlace element')
    (space : FieldLayout) (length : Nat) :
    AnsweredAlike (space.arrayOf element length) (space.arrayOf element' length) := by
  unfold FieldLayout.arrayOf
  cases space.arraySize? length with
  | some size => exact .same _
  | none => exact .overflow (h.array length)

/-- Nothing behind a pointer or a reference is asked for, whatever the target knows of it. -/
theorem AlikeInPlace.exec_layout (h : type.AlikeInPlace type')
    (hpointer : env'.pointerSize = env.pointerSize)
    (hembedded : ∀ cls, type.innermost = .embedded cls →
      (env'.embedded cls).exec s = (env.embedded cls).exec s) :
    AnsweredAlike ((type.layout env).exec s).1 ((type'.layout env').exec s).1 ∧
      ((type'.layout env').exec s).2 = ((type.layout env).exec s).2 := by
  induction h with
  | primitive scalar => exact ⟨.same _, rfl⟩
  | object | pointer | reference =>
    simp only [AttributeType.layout, hpointer]
    exact ⟨.same _, trivial⟩
  | embedded cls =>
    simp only [AttributeType.layout, hembedded cls rfl]
    exact ⟨.same _, trivial⟩
  | @array element element' h length ih =>
    obtain ⟨hanswer, hstate⟩ := ih hembedded
    rw [layout_array, layout_array, LayoutM.exec_bind, LayoutM.exec_bind]
    rcases hrun : (element.layout env).exec s with ⟨answer, t⟩
    rcases hrun' : (element'.layout env').exec s with ⟨answer', t'⟩
    rw [hrun, hrun'] at hanswer hstate
    cases hanswer with
    | same =>
      cases answer with
      | error error => exact ⟨.same _, hstate⟩
      | ok space =>
        simp only [LayoutM.exec_liftM]
        exact ⟨h.arrayOf space length, hstate⟩
    | overflow hlarge => exact ⟨.overflow hlarge, hstate⟩

/-! ## Exact sizes -/

/-- How a type is sized in a state of a target. -/
structure SizedExactly (env : TypeEnv σ) (s : σ) (type : AttributeType) : Prop where
  /-- The size is the product of the lengths of the arrays and of the size of the innermost type. -/
  ok_iff : ∀ space s', (type.layout env).exec s = (.ok space, s') ↔
    ∃ inner, env.Takes s type.innermost inner s' ∧
      type.lengths.prod * inner.size < addressSpace ∧
      space = ⟨type.lengths.prod * inner.size, inner.alignment⟩
  whole : ∀ space s', (type.layout env).exec s = (.ok space, s') → space.IsWhole
  /-- Rounding the size up changes nothing. -/
  stride : ∀ space s', (type.layout env).exec s = (.ok space, s') →
    space.alignment.align space.size = some space.size
  /-- A type is refused where the target refuses its innermost type, and where the product is no
  word. Then the innermost array is named whose product is no word. -/
  error_iff : ∀ error s', (type.layout env).exec s = (.error error, s') ↔
    (∃ cls, type.innermost = .embedded cls ∧ (env.embedded cls).exec s = (.error error, s')) ∨
    ∃ inner, env.Takes s type.innermost inner s' ∧
      addressSpace ≤ type.lengths.prod * inner.size ∧
      ∃ large, type.overflowing? inner.size = some large ∧
        error = .sizeOverflow ⟨""⟩ "" large.text
  /-- What stands behind pointers and references only shows in the text of an array. -/
  behind : ∀ (env' : TypeEnv σ) (type' : AttributeType), type.AlikeInPlace type' →
    env'.pointerSize = env.pointerSize →
    (∀ cls, type.innermost = .embedded cls →
      (env'.embedded cls).exec s = (env.embedded cls).exec s) →
    AnsweredAlike ((type.layout env).exec s).1 ((type'.layout env').exec s).1 ∧
      ((type'.layout env').exec s).2 = ((type.layout env).exec s).2

/-- A type is sized exactly where the target takes whole spaces. -/
theorem sizedExactly_of_isWhole (h : env.IsWhole s) (hfilled : type.IsFilled) :
    SizedExactly env s type := by
  have hwhole : ∀ space s', (type.layout env).exec s = (.ok space, s') → space.IsWhole := by
    intro space s' hspace
    obtain ⟨inner, htakes, hlt, rfl⟩ := (h.exec_layout_eq_ok_iff hfilled).1 hspace
    exact hfilled.isWhole (h.of_takes htakes) hlt
  constructor
  case ok_iff => exact fun _ _ => h.exec_layout_eq_ok_iff hfilled
  case whole => exact hwhole
  case stride => exact fun space s' hspace => (hwhole space s' hspace).align_eq
  case error_iff => exact fun _ _ => h.exec_layout_eq_error_iff hfilled
  case behind => exact fun _ _ halike => halike.exec_layout

/-- Arrays of pairs of points in rows. A pair fits, and a row of them does not. -/
theorem sizedExactly_of_points :
    ∃ (env : TypeEnv Unit) (row : AttributeType),
      env.IsWhole () ∧ (array row 3).IsFilled ∧ SizedExactly env () (array row 3) ∧
      row = array (array (embedded ⟨"Point"⟩) 2) (2 ^ 60) ∧
      ((array row 3).layout env).exec () = (.error (.sizeOverflow ⟨""⟩ "" row.text), ()) := by
  let env := TypeEnv.ofTable 8 ⟨"User"⟩ [(⟨"Point"⟩, 24, 8)]
  let row := array (array (embedded ⟨"Point"⟩) 2) (2 ^ 60)
  have hpoint : FieldLayout.IsWhole ⟨24, ⟨8⟩⟩ := ⟨by decide, by decide, ⟨3, rfl⟩, by decide⟩
  have henv : env.IsWhole () := by
    refine ⟨⟨3, rfl⟩, by decide, ?_⟩
    intro cls space s' h
    by_cases hcls : cls = ⟨"Point"⟩
    · subst hcls
      cases h
      exact hpoint
    · have hlookup : [((⟨"Point"⟩ : ClassId), 24, 8)].lookup cls = none := by
        simp [List.lookup_cons, beq_false_of_ne hcls]
      simp [env, TypeEnv.ofTable, hlookup] at h
  have hfilled : (array row 3).IsFilled := ⟨by decide, by decide, by decide, trivial⟩
  have hsized := sizedExactly_of_isWhole henv hfilled
  have hrow : (array row 3).overflowing? 24 = some row := by decide
  have htakes : env.Takes () (embedded ⟨"Point"⟩) ⟨24, ⟨8⟩⟩ () := .embedded rfl
  exact ⟨env, row, henv, hfilled, hsized, rfl,
    (hsized.error_iff _ _).2 (.inr ⟨_, htakes, by decide, row, hrow, rfl⟩)⟩

end AttributeType

end ObjectLayout
