import ObjectLayout.Address.Offset
import ObjectLayout.AttributeType.Basic
import ObjectLayout.Table.OrderedMap

/-!
# Symbol tables

Where the attributes of a class lie in its instances. A class places the attributes it introduces,
and repeats the places of those it inherits.
-/

set_option autoImplicit false

namespace ObjectLayout

/-- Which class placed an attribute. -/
inductive StorageClass where
  /-- The owner of the table. -/
  | own
  /-- An ancestor. -/
  | inherited (origin : ClassId)
deriving DecidableEq, Repr

/-- The place of an attribute. -/
structure Variable where
  type : AttributeType
  /-- Which class placed it. -/
  storage : StorageClass
  /-- Its distance from the base address. -/
  offset : Offset
  size : Nat
deriving DecidableEq, Repr

namespace Variable

/-- Whether an ancestor placed the attribute. -/
def isInherited (v : Variable) : Bool :=
  match v.storage with
  | .own => false
  | .inherited _ => true

/-- The class that placed the attribute, in the table of `owner`. -/
def declaredIn (v : Variable) (owner : ClassId) : ClassId :=
  match v.storage with
  | .own => owner
  | .inherited origin => origin

/-- The same place, as a subclass of `owner` sees it. -/
def inheritFrom (v : Variable) (owner : ClassId) : Variable :=
  { v with storage := .inherited (v.declaredIn owner) }

end Variable

/-- The places of the attributes of a class, in layout order. -/
abbrev SymbolTable := OrderedMap String Variable

end ObjectLayout
