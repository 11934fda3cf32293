import ObjectLayout.Address.Alignment

/-!
# Attribute types

What an attribute of an extension type holds: a scalar, a managed object, something behind a pointer
or a reference, an array, or an instance of an extension type stored in place. Two types are the
same when they are written the same, so equality is structural.
-/

set_option autoImplicit false

namespace ObjectLayout

/-- The scalar types. -/
inductive PrimitiveType where
  | bool
  | int8
  | int16
  | int32
  | int64
  | uint8
  | uint16
  | uint32
  | uint64
  | float32
  | float64
  /-- Pairs of `float32`. -/
  | complex64
  /-- Pairs of `float64`. -/
  | complex128
deriving DecidableEq, Hashable, Repr

namespace PrimitiveType

/-- All scalar types. -/
def all : List PrimitiveType :=
  [bool, int8, int16, int32, int64, uint8, uint16, uint32, uint64, float32, float64, complex64,
   complex128]

/-- The number of bytes of a value. -/
def size : PrimitiveType → Nat
  | bool | int8 | uint8 => 1
  | int16 | uint16 => 2
  | int32 | uint32 | float32 => 4
  | int64 | uint64 | float64 | complex64 => 8
  | complex128 => 16

/-- A complex number is aligned like one of its parts, every other scalar like its size. -/
def alignment : PrimitiveType → Alignment
  | complex64 => .natural 4
  | complex128 => .natural 8
  | other => .natural other.size

/-- The name of the type. -/
def name : PrimitiveType → String
  | bool => "bool"
  | int8 => "int8"
  | int16 => "int16"
  | int32 => "int32"
  | int64 => "int64"
  | uint8 => "uint8"
  | uint16 => "uint16"
  | uint32 => "uint32"
  | uint64 => "uint64"
  | float32 => "float32"
  | float64 => "float64"
  | complex64 => "complex64"
  | complex128 => "complex128"

/-- The scalar type of that name. -/
def ofName? (text : String) : Option PrimitiveType :=
  all.find? fun p => p.name == text

end PrimitiveType

/-- The type of an attribute. -/
inductive AttributeType where
  | primitive (scalar : PrimitiveType)
  /-- A reference to any managed object. -/
  | object
  /-- A pointer to values of the target type. -/
  | pointer (target : AttributeType)
  /-- That many elements, one after another. -/
  | array (element : AttributeType) (length : Nat)
  /-- A reference to an instance of an extension type. -/
  | reference (cls : ClassId)
  /-- An instance of an extension type, stored in place. -/
  | embedded (cls : ClassId)
deriving DecidableEq, Hashable, Repr

namespace AttributeType

instance : Inhabited AttributeType := ⟨object⟩

/-- The text of a type, from which it can be read back. -/
def text : AttributeType → String
  | primitive scalar => scalar.name
  | object => "object"
  | pointer target => "*" ++ target.text
  | array element length => "[" ++ element.text ++ "; " ++ toString length ++ "]"
  | reference cls => "ref " ++ cls.text
  | embedded cls => cls.text

instance : ToString AttributeType where
  toString := text

/-- The texts of several types, with a separator between neighbours. -/
def joinTexts (separator : String) (types : List AttributeType) : String :=
  separator.intercalate (types.map text)

end AttributeType

end ObjectLayout
