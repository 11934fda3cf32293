import ObjectLayout.Address.Word
import ObjectLayout.Error

/-!
# Alignments

An alignment is a power of two. `Alignment.align` rounds an offset up to a multiple of it by masking
the low bits of the last address that rounding could reach.
-/

set_option autoImplicit false

namespace ObjectLayout

/-- The least power of two that is not below `n`, and `1` for zero. -/
def leastPowerOfTwo (n : Nat) : Nat :=
  if n ≤ 1 then 1 else Nat.pow 2 ((n - 1).log2 + 1)

/-- The alignment of a field or an object. -/
structure Alignment where
  /-- The number of bytes that an aligned offset is a multiple of. -/
  value : Nat
deriving DecidableEq, Repr

namespace Alignment

/-- The alignment of everything. -/
def byte : Alignment := ⟨1⟩

/-- The alignment of a word, where none is stated. -/
instance : Inhabited Alignment := ⟨⟨8⟩⟩

/-- The alignment of that many bytes, which has to be a power of two. -/
def ofValue (value : Nat) : Except LayoutError Alignment :=
  if value.isPowerOfTwo then .ok ⟨value⟩ else .error (.invalidConfig (.alignment value))

/-- The alignment of a scalar of `size` bytes: the least power of two that covers it. -/
def natural (size : Nat) : Alignment := ⟨leastPowerOfTwo size⟩

/-- Rounds an offset up to a multiple of the alignment, or answers `none` where the multiple is no
word. The mask keeps the bits from the alignment upwards. -/
def align (a : Alignment) (offset : Nat) : Option Nat :=
  (Word.add? offset (a.value - 1)).map fun last => last &&& (addressSpace - a.value)

/-- The larger of two alignments. -/
def max (a b : Alignment) : Alignment :=
  if a.value < b.value then b else a

end Alignment

end ObjectLayout
