import ObjectLayout.Class.Kind
import ObjectLayout.Table.Attributes
import ObjectLayout.Table.Dispatch
import ObjectLayout.Table.Symbols

/-!
# Descriptors

The finished layout of an extension type, together with the layouts of its ancestors. The ancestors
are listed from the parent to the root, so the descriptor of the parent is the head of that list
with the rest of it.
-/

set_option autoImplicit false

namespace ObjectLayout

/-- The layout of one class. -/
structure ClassLayout where
  id : ClassId
  kind : ExtensionKind
  attributes : AttributeTable
  dispatch : DispatchTable
  /-- The attributes with their places. -/
  symbols : SymbolTable
  /-- The offset of the pointer to the virtual table in an instance. -/
  vtabOffset : Nat
  /-- The offset at which the attributes that the class introduces begin. -/
  attrOffset : Nat
  /-- The offset in the virtual table of the first slot that the class introduces. -/
  ownSlotsOffset : Nat
  size : Nat
  alignment : Alignment
  /-- The number of slots of the virtual table. -/
  slotCount : Nat
  /-- The size of a pointer, and of a slot of the virtual table. -/
  pointerSize : Nat
  /-- The size of what precedes the first slot of the virtual table. -/
  vtableHeaderSize : Nat
deriving DecidableEq, Repr

namespace ClassLayout

/-- The name of the class without its scope. -/
def name (c : ClassLayout) : String := c.id.shortName

/-- The size of the virtual table. It is not checked to be a word. -/
def vtableSize (c : ClassLayout) : Nat :=
  Word.wrap (c.vtableHeaderSize + c.slotCount * c.pointerSize)

/-- The virtual table fits into the address space. -/
def VtableFits (c : ClassLayout) : Prop :=
  c.vtableHeaderSize + c.slotCount * c.pointerSize < addressSpace

instance (c : ClassLayout) : Decidable c.VtableFits :=
  inferInstanceAs (Decidable (c.vtableHeaderSize + c.slotCount * c.pointerSize < addressSpace))

/-- A virtual table that fits is as large as its parts together. -/
theorem VtableFits.vtableSize_eq {c : ClassLayout} (h : c.VtableFits) :
    c.vtableSize = c.vtableHeaderSize + c.slotCount * c.pointerSize :=
  Word.wrap_of_lt h

/-- The place of an attribute. -/
def variableNamed (c : ClassLayout) (name : String) : Except LayoutError Variable :=
  match c.symbols.get? name with
  | some v => .ok v
  | none => .error (.attributeNotFound c.id name)

/-- The offset of an attribute. -/
def offsetOf (c : ClassLayout) (name : String) : Except LayoutError Nat :=
  (c.variableNamed name).map fun v => v.offset.value

/-- The slot of a method. -/
def methodSlot (c : ClassLayout) (name : String) : Except LayoutError MethodSlot :=
  match c.dispatch.get? name with
  | some slot => .ok slot
  | none => .error (.methodNotFound c.id name)

/-- The index of the slot of a method. -/
def slotOf (c : ClassLayout) (name : String) : Except LayoutError Nat :=
  (c.methodSlot name).map MethodSlot.index

/-- The offset of a slot in the virtual table. It is not checked to be a word. -/
def slotOffset (c : ClassLayout) (index : Nat) : Nat :=
  Word.wrap (c.vtableHeaderSize + index * c.pointerSize)

/-- The offset in the virtual table of the pointer to a method. -/
def methodOffset (c : ClassLayout) (name : String) : Except LayoutError Nat :=
  (c.slotOf name).map c.slotOffset

/-- The attributes that the class adds to those of its parent. -/
def ownAttributes (c : ClassLayout) : List (String × Variable) :=
  c.symbols.toList.filter fun (_, v) => !v.isInherited

/-- The class in words: its kind and its name. -/
def shortText (c : ClassLayout) : String :=
  "<" ++ c.kind.label ++ " " ++ c.name ++ ">"

/-- The class in words: its kind, its name, and its attributes with their types. -/
def longText (c : ClassLayout) : String :=
  "<" ++ c.kind.label ++ " " ++ c.name ++ "(" ++ c.attributes.text ++ ")>"

end ClassLayout

/-- The layout of an extension type with those of its ancestors. -/
structure Descriptor extends ClassLayout where
  /-- The layouts of the ancestors, from the parent to the root. -/
  ancestors : List ClassLayout
deriving DecidableEq, Repr

namespace Descriptor

/-- The descriptor of the parent. -/
def parent? (d : Descriptor) : Option Descriptor :=
  match d.ancestors with
  | [] => none
  | parent :: rest => some { toClassLayout := parent, ancestors := rest }

/-- Whether the type has no parent. -/
def isRoot (d : Descriptor) : Bool := d.ancestors.isEmpty

/-- The layouts from the type itself to the root. -/
def chain (d : Descriptor) : List ClassLayout := d.toClassLayout :: d.ancestors

/-- The identities from the type itself to the root. -/
def chainIds (d : Descriptor) : List ClassId := d.chain.map ClassLayout.id

/-- The number of ancestors. -/
def depth (d : Descriptor) : Nat := d.ancestors.length

/-- Whether the type is the class or descends from it. -/
def isSubtypeOf (d : Descriptor) (cls : ClassId) : Bool := d.chainIds.contains cls

/-- Every descriptor is that of an extension type. -/
def isExtension (_ : Descriptor) : Bool := true

end Descriptor

end ObjectLayout
