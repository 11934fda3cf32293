import ObjectLayout.Address.Alignment

/-!
# Layout configuration

The constants of the target that layouts are computed against: how large a pointer is, what stands
in front of the pointer to the virtual table in an object, and what stands in front of the first
slot of a virtual table.
-/

set_option autoImplicit false

namespace ObjectLayout

/-- The constants of a target. -/
structure LayoutConfig where
  /-- The size of a pointer, and of a slot of a virtual table. -/
  pointerSize : Nat := 8
  /-- The size of what precedes the pointer to the virtual table in an object. -/
  objectHeaderSize : Nat := 16
  /-- The size of what precedes the first slot of a virtual table. -/
  vtableHeaderSize : Nat := 0
deriving DecidableEq, Repr

instance : Inhabited LayoutConfig := ⟨{}⟩

namespace LayoutConfig

/-- The alignment of a pointer. -/
def pointerAlignment (config : LayoutConfig) : Alignment :=
  .natural config.pointerSize

/-- The offset of the pointer to the virtual table in an object without a parent. -/
def vtabPointerOffset (config : LayoutConfig) : Nat :=
  config.objectHeaderSize

/-- The size of everything in front of the attributes of an object without a parent. The sum is not
checked, and wraps around where it is no word. -/
def headerSize (config : LayoutConfig) : Nat :=
  Word.wrap (config.objectHeaderSize + config.pointerSize)

/-- What is in front of the attributes of an object without a parent fits into the address space. -/
def HeaderFits (config : LayoutConfig) : Prop :=
  config.objectHeaderSize + config.pointerSize < addressSpace

instance (config : LayoutConfig) : Decidable config.HeaderFits :=
  inferInstanceAs (Decidable (config.objectHeaderSize + config.pointerSize < addressSpace))

/-- A header that fits is as large as its parts together. -/
theorem HeaderFits.headerSize_eq {config : LayoutConfig} (h : config.HeaderFits) :
    config.headerSize = config.objectHeaderSize + config.pointerSize :=
  Word.wrap_of_lt h

/-- Accepts a configuration whose pointer size is a power of two and whose headers are multiples of
it. The pointer size is checked first and the header of virtual tables last. -/
def validate (config : LayoutConfig) : Except LayoutError Unit :=
  if ¬ config.pointerSize.isPowerOfTwo then
    .error (.invalidConfig (.pointerSize config.pointerSize))
  else if config.objectHeaderSize % config.pointerSize ≠ 0 then
    .error (.invalidConfig (.objectHeader config.objectHeaderSize))
  else if config.vtableHeaderSize % config.pointerSize ≠ 0 then
    .error (.invalidConfig (.vtableHeader config.vtableHeaderSize))
  else .ok ()

end LayoutConfig

end ObjectLayout
