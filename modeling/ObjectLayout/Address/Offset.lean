import ObjectLayout.Address.Alignment
import ObjectLayout.Text.Hexadecimal

/-!
# Offsets

The distance in bytes of a field from the base address of its object.
-/

set_option autoImplicit false

namespace ObjectLayout

/-- A distance in bytes from the base address of an object. -/
structure Offset where
  value : Nat
deriving DecidableEq, Repr, Inhabited

namespace Offset

instance : ToString Offset where
  toString o := "0x" ++ Text.hexadecimal o.value

/-- An offset is aligned when it is a multiple of the alignment. -/
def IsAligned (o : Offset) (a : Alignment) : Prop :=
  o.value % a.value = 0

instance (o : Offset) (a : Alignment) : Decidable (o.IsAligned a) :=
  inferInstanceAs (Decidable (o.value % a.value = 0))

/-- The next aligned offset, or `none` where it is no word. -/
def alignTo (o : Offset) (a : Alignment) : Option Offset :=
  (a.align o.value).map Offset.mk

/-- The offset that many bytes further on, or `none` where it is no word. -/
def advance (o : Offset) (bytes : Nat) : Option Offset :=
  (Word.add? o.value bytes).map Offset.mk

end Offset

end ObjectLayout
