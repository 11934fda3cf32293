import ObjectLayout.AttributeType.Basic
import ObjectLayout.LayoutM

/-!
# Sizes of attribute types

The size and the alignment of a type depend on the target: on the size of a pointer, and on the
layout of the classes whose instances are stored in place. `TypeEnv` is that target. Asking it for a
class may change a state, since the class may have to be laid out first.
-/

set_option autoImplicit false

namespace ObjectLayout

/-- The space that a field takes. -/
structure FieldLayout where
  size : Nat
  /-- What the offset of the field has to be a multiple of. -/
  alignment : Alignment
deriving DecidableEq, Repr

/-- A field as large as a pointer of that size, aligned to its own size. -/
def FieldLayout.pointer (pointerSize : Nat) : FieldLayout :=
  ⟨pointerSize, .natural pointerSize⟩

/-- The space of a scalar. -/
def PrimitiveType.layout (p : PrimitiveType) : FieldLayout :=
  ⟨p.size, p.alignment⟩

/-- The size of an array: the length times the size of an element rounded up to its alignment. There
is none where the rounded size or the product is no word. -/
def FieldLayout.arraySize? (element : FieldLayout) (length : Nat) : Option Nat :=
  (element.alignment.align element.size).bind fun stride => Word.mul? stride length

/-- The target against which types are sized. -/
structure TypeEnv (σ : Type) where
  pointerSize : Nat
  /-- The space of an instance stored in place. -/
  embedded : ClassId → LayoutM σ FieldLayout

namespace TypeEnv

/-- A target that knows the sizes and alignments of a fixed list of classes. Another class is
unresolved, on behalf of `user`. -/
def ofTable (pointerSize : Nat) (user : ClassId) (classes : List (ClassId × Nat × Nat)) :
    TypeEnv Unit where
  pointerSize := pointerSize
  embedded cls :=
    match classes.lookup cls with
    | none => throw (.unresolvedType user cls)
    | some (size, alignment) => do
      let alignment ← Alignment.ofValue alignment
      return ⟨size, alignment⟩

end TypeEnv

/-- The space that a type takes. A managed object, a pointer and a reference take that of a pointer,
and what stands behind them is not sized. An overflow in an array names the array and no attribute
yet. -/
def AttributeType.layout {σ : Type} (env : TypeEnv σ) : AttributeType → LayoutM σ FieldLayout
  | primitive scalar => pure scalar.layout
  | object => pure (.pointer env.pointerSize)
  | pointer _ => pure (.pointer env.pointerSize)
  | reference _ => pure (.pointer env.pointerSize)
  | embedded cls => env.embedded cls
  | array element length => do
    let space ← element.layout env
    match space.arraySize? length with
    | some size => return ⟨size, space.alignment⟩
    | none => throw (.sizeOverflow ⟨""⟩ "" (array element length).text)

end ObjectLayout
