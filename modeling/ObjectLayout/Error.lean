import ObjectLayout.Class.Id

/-!
# Layout errors

`LayoutError` has one constructor per cause for which a declaration, a look-up or a piece of text is
rejected. The wording is in `LayoutError.message`.
-/

set_option autoImplicit false

namespace ObjectLayout

/-- The two tables of a class. -/
inductive TableKind where
  /-- The attributes and their types. -/
  | attributes
  /-- The methods and their slots. -/
  | methods
deriving DecidableEq, Repr

/-- The name of the table in messages. -/
def TableKind.label : TableKind → String
  | .attributes => "attribute table"
  | .methods => "dispatch table"

/-- Why a declaration does not declare a class. -/
inductive ClassFault where
  /-- An instance was declared instead of a class. -/
  | instanceForm
  /-- A primitive type was declared instead of a class. -/
  | primitiveForm
  /-- The identity is not a dotted identifier. -/
  | badName
  /-- This base is not a dotted identifier. -/
  | badBase (base : ClassId)
  /-- Another reason, in words. -/
  | because (reason : String)
deriving DecidableEq, Repr

/-- The fault in words. -/
def ClassFault.message : ClassFault → String
  | .instanceForm => "an instance is not a class"
  | .primitiveForm => "primitive types cannot be extended"
  | .badName => "class name is not a valid identifier"
  | .badBase base => s!"base '{base}' is not a valid identifier"
  | .because reason => reason

/-- Why a layout configuration or an alignment cannot be used. -/
inductive ConfigFault where
  /-- The alignment is not a power of two. -/
  | alignment (value : Nat)
  /-- The pointer size is not a power of two. -/
  | pointerSize (value : Nat)
  /-- The object header is not a multiple of the pointer alignment. -/
  | objectHeader (size : Nat)
  /-- The header of virtual tables is not a multiple of the pointer alignment. -/
  | vtableHeader (size : Nat)
  /-- Another reason, in words. -/
  | because (reason : String)
deriving DecidableEq, Repr

/-- The fault in words. -/
def ConfigFault.message : ConfigFault → String
  | .alignment value => s!"alignment {value} is not a power of two"
  | .pointerSize value => s!"pointer_size must be a non-zero power of two, got {value}"
  | .objectHeader size => s!"object_header_size {size} is not pointer aligned"
  | .vtableHeader size => s!"vtable_header_size {size} is not pointer aligned"
  | .because reason => reason

/-- Why a text is not the text of an attribute type. -/
inductive TypeFault where
  /-- The text is no type. -/
  | unknown (text : String)
  /-- The length in this array text is not written in ASCII digits or is no word. -/
  | badLength (text : String)
  /-- The length in this array text is zero. -/
  | zeroLength (text : String)
  /-- Another reason, in words. -/
  | because (reason : String)
deriving DecidableEq, Repr

/-- The fault in words. -/
def TypeFault.message : TypeFault → String
  | .unknown text => s!"unknown type '{text}'"
  | .badLength text => s!"bad array length in '{text}'"
  | .zeroLength text => s!"zero-length array '{text}'"
  | .because reason => reason

/-- The causes for which a layout is refused. -/
inductive LayoutError where
  /-- The declaration does not declare a class. -/
  | invalidClass (cls : ClassId) (fault : ClassFault)
  /-- The class has several bases that are extension types. -/
  | multipleInheritance (cls : ClassId) (parents : List ClassId)
  /-- The class depends on itself, along the chain. -/
  | cyclicDefinition (cls : ClassId) (chain : List ClassId)
  /-- An inherited attribute is declared with another type. -/
  | attributeRedefinition (cls : ClassId) (name expected found : String)
  /-- A method or a call disagrees with the signature of the slot. -/
  | methodSignatureMismatch (cls : ClassId) (method expected found : String)
  /-- A name is declared twice in one class. -/
  | duplicateName (cls : ClassId) (table : TableKind) (name : String)
  /-- An operation needs a table that is not attached yet. -/
  | uninitializedState (cls : ClassId) (table : TableKind) (operation : String)
  /-- The class has no attribute of that name. -/
  | attributeNotFound (cls : ClassId) (name : String)
  /-- The class has no method of that name. -/
  | methodNotFound (cls : ClassId) (method : String)
  /-- The class stores a type by value that is not known. -/
  | unresolvedType (cls referenced : ClassId)
  /-- The attribute does not fit into the address space. -/
  | sizeOverflow (cls : ClassId) (name type : String)
  /-- The configuration cannot be used. -/
  | invalidConfig (fault : ConfigFault)
  /-- The text is not the text of an attribute type. -/
  | parseError (fault : TypeFault)
deriving DecidableEq, Repr

namespace LayoutError

/-- The identities, with a separator between neighbours. -/
def joinIds (separator : String) (ids : List ClassId) : String :=
  separator.intercalate (ids.map ClassId.text)

/-- The error in words. -/
def message : LayoutError → String
  | invalidClass cls fault => s!"Invalid class '{cls}': {fault.message}"
  | multipleInheritance cls parents =>
    let bases := joinIds ", " parents
    s!"Multiple inheritance in '{cls}': extension bases {bases}"
  | cyclicDefinition cls chain =>
    let path := joinIds " -> " chain
    s!"Cyclic definition of '{cls}': {path}"
  | attributeRedefinition cls name expected found =>
    s!"Attribute '{name}' of '{cls}' redefined as {found}, parent declares {expected}"
  | methodSignatureMismatch cls method expected found =>
    s!"Method '{method}' of '{cls}' overrides slot with signature {expected}, got {found}"
  | duplicateName cls table name => s!"Duplicate name '{name}' in {table.label} of '{cls}'"
  | uninitializedState cls table operation =>
    s!"'{operation}' on '{cls}' called before its {table.label} was built"
  | attributeNotFound cls name => s!"Attribute not found: {cls}.{name}"
  | methodNotFound cls method => s!"Method not found: {cls}.{method}"
  | unresolvedType cls referenced =>
    s!"Type '{referenced}' used by '{cls}' is not a known extension type"
  | sizeOverflow cls name type =>
    s!"Attribute '{name}' of '{cls}' of type {type} overflows the address space"
  | invalidConfig fault => s!"Invalid layout config: {fault.message}"
  | parseError fault => s!"Parse error: {fault.message}"

instance : ToString LayoutError where
  toString := message

/-- The name of the cause. -/
def label : LayoutError → String
  | invalidClass .. => "InvalidClass"
  | multipleInheritance .. => "MultipleInheritance"
  | cyclicDefinition .. => "CyclicDefinition"
  | attributeRedefinition .. => "AttributeRedefinition"
  | methodSignatureMismatch .. => "MethodSignatureMismatch"
  | duplicateName .. => "DuplicateName"
  | uninitializedState .. => "UninitializedState"
  | attributeNotFound .. => "AttributeNotFound"
  | methodNotFound .. => "MethodNotFound"
  | unresolvedType .. => "UnresolvedType"
  | sizeOverflow .. => "SizeOverflow"
  | invalidConfig .. => "InvalidConfig"
  | parseError .. => "ParseError"

/-- The class whose layout or look-up failed, where the error has one. -/
def class? : LayoutError → Option ClassId
  | invalidClass cls _ | multipleInheritance cls _ | cyclicDefinition cls _
  | attributeRedefinition cls _ _ _ | methodSignatureMismatch cls _ _ _ | duplicateName cls _ _
  | uninitializedState cls _ _ | attributeNotFound cls _ | methodNotFound cls _
  | unresolvedType cls _ | sizeOverflow cls _ _ => some cls
  | invalidConfig _ | parseError _ => none

/-- An overflow met while an attribute is sized is put down to that attribute and the class that
declares it. Other errors keep the place they name. -/
def inAttribute (cls : ClassId) (name : String) : LayoutError → LayoutError
  | sizeOverflow _ _ type => sizeOverflow cls name type
  | other => other

end LayoutError

end ObjectLayout
