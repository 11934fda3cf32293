import ObjectLayout.AttributeType.Size
import ObjectLayout.Class.Definition
import ObjectLayout.Config
import ObjectLayout.Descriptor.Basic
import ObjectLayout.Table.Attachment

/-!
# Drafts

A descriptor while it is laid out. Where its attributes begin is settled when the draft is made; the
attribute table is attached next, which places the attributes that the parent does not place
already, then the dispatch table, and at last the draft is frozen.
-/

set_option autoImplicit false

namespace ObjectLayout

/-- A field that has just been placed. -/
structure PlacedField where
  /-- The class that introduces the field. -/
  cls : ClassId
  name : String
  type : AttributeType
  offset : Offset
  size : Nat
deriving DecidableEq, Repr

/-- What has been laid out of a class so far. -/
structure Segment where
  symbols : SymbolTable
  /-- The end of the field placed last. -/
  cursor : Offset
  /-- The alignment of everything placed so far. -/
  alignment : Alignment
  /-- The field that the class introduced last, with its type. -/
  lastOwn : Option (String × AttributeType)
deriving DecidableEq, Repr

/-- A descriptor while it is laid out. -/
structure Draft where
  id : ClassId
  kind : ExtensionKind
  parent : Option Descriptor
  /-- The attribute table, once it is attached. -/
  attributes : Attachment AttributeTable
  /-- The dispatch table, once it is attached. -/
  dispatch : Attachment DispatchTable
  symbols : SymbolTable
  vtabOffset : Nat
  /-- The offset at which the attributes that the class introduces begin. -/
  attrOffset : Nat
  /-- The offset in the virtual table of the first slot that the class introduces. -/
  ownSlotsOffset : Nat
  size : Nat
  /-- The alignment of an instance, as far as it is laid out. -/
  alignment : Alignment
  /-- The number of slots of the virtual table. They are counted when the draft is frozen. -/
  slotCount : Nat
  pointerSize : Nat
  vtableHeaderSize : Nat
deriving DecidableEq, Repr

namespace Draft

/-- A draft in which no table is attached. Its attributes begin where an instance of the parent
ends, and its slots after those of the parent; without a parent they begin after the headers. -/
def ofDecl (decl : ClassDecl) (parent : Option Descriptor) (config : LayoutConfig) : Draft where
  id := decl.id
  kind := decl.kind
  parent := parent
  attributes := .empty .attributes
  dispatch := .empty .methods
  symbols := ∅
  vtabOffset := parent.elim config.vtabPointerOffset fun p => p.vtabOffset
  attrOffset := parent.elim config.headerSize fun p => p.size
  ownSlotsOffset := parent.elim config.vtableHeaderSize fun p =>
    Word.wrap (config.vtableHeaderSize + p.slotCount * config.pointerSize)
  size := parent.elim config.headerSize fun p => p.size
  alignment := parent.elim config.pointerAlignment fun p => p.alignment
  slotCount := 0
  pointerSize := config.pointerSize
  vtableHeaderSize := config.vtableHeaderSize

/-- The place that the parent gives to an attribute, as the class inherits it. -/
def inherited? (draft : Draft) (name : String) : Option Variable :=
  draft.parent.bind fun p => (p.symbols.get? name).map fun v => v.inheritFrom p.id

/-- The error for a field that does not fit into the address space. -/
def overflow (draft : Draft) (name : String) (type : AttributeType) : LayoutError :=
  .sizeOverflow draft.id name type.text

variable {σ : Type}

/-- Sizes a type on behalf of an attribute of the class. -/
def sizeField (draft : Draft) (env : TypeEnv σ) (name : String) (type : AttributeType) :
    LayoutM σ FieldLayout :=
  ExceptT.adapt (LayoutError.inAttribute draft.id name) (type.layout env)

/-- Places one attribute: where the parent has it, or else at the first aligned offset after what is
placed already. `note` is told of each field that the class introduces. -/
def placeField (draft : Draft) (env : TypeEnv σ) (note : PlacedField → LayoutM σ Unit)
    (segment : Segment) (name : String) (type : AttributeType) : LayoutM σ Segment :=
  match draft.inherited? name with
  | some v => return { segment with symbols := segment.symbols.insert name v }
  | none => do
    let field ← draft.sizeField env name type
    let start ←
      LayoutM.orThrow (draft.overflow name type) (segment.cursor.alignTo field.alignment)
    note { cls := draft.id, name, type, offset := start, size := field.size }
    let stop ← LayoutM.orThrow (draft.overflow name type) (start.advance field.size)
    let v : Variable := { type, storage := .own, offset := start, size := field.size }
    return {
      symbols := segment.symbols.insert name v
      cursor := stop
      alignment := segment.alignment.max field.alignment
      lastOwn := some (name, type) }

/-- Places attributes one after another. -/
def placeFields (draft : Draft) (env : TypeEnv σ) (note : PlacedField → LayoutM σ Unit) :
    Segment → List (String × AttributeType) → LayoutM σ Segment
  | segment, [] => pure segment
  | segment, (name, type) :: rest => do
    let segment ← draft.placeField env note segment name type
    draft.placeFields env note segment rest

/-- The size of an instance: the end of the last field rounded up to the alignment of the instance.
Where the rounded size is no word the field introduced last overflows; a class that introduces no
field keeps the size with which the draft began. -/
def instanceSize (draft : Draft) (segment : Segment) : Except LayoutError Nat :=
  match segment.alignment.align segment.cursor.value, segment.lastOwn with
  | some size, _ => .ok size
  | none, some (name, type) => .error (draft.overflow name type)
  | none, none => .ok draft.attrOffset

/-- Attaches the attribute table and places the attributes in its order. A refusal leaves the draft
as it was. -/
def setAttributes (draft : Draft) (table : AttributeTable) (env : TypeEnv σ)
    (note : PlacedField → LayoutM σ Unit) : LayoutM σ Draft := do
  let start : Segment :=
    { symbols := ∅, cursor := ⟨draft.attrOffset⟩, alignment := draft.alignment, lastOwn := none }
  let segment ← draft.placeFields env note start table.toList
  let size ← draft.instanceSize segment
  return { draft with
    attributes := draft.attributes.set table
    symbols := segment.symbols
    size := size
    alignment := segment.alignment }

/-- Attaches the dispatch table. -/
def setDispatch (draft : Draft) (table : DispatchTable) : Draft :=
  { draft with dispatch := draft.dispatch.set table }

/-- Declares a method in the dispatch table. -/
def addMethod (draft : Draft) (method : MethodDecl) : Except LayoutError (Draft × Placement) := do
  let table ← draft.dispatch.get draft.id "add_method"
  let (table, placement) ← table.addMethod method
  return (draft.setDispatch table, placement)

/-- The attributes with their types, for the operation of that name. -/
def attributeList (draft : Draft) (operation : String) :
    Except LayoutError (List (String × AttributeType)) :=
  (draft.attributes.get draft.id operation).map AttributeTable.toList

/-- The methods with their slots, for the operation of that name. -/
def methodList (draft : Draft) (operation : String) :
    Except LayoutError (List (String × MethodSlot)) :=
  (draft.dispatch.get draft.id operation).map DispatchTable.toList

/-- The finished descriptor, whose slots are those of the dispatch table. Both tables have to be
attached; the attribute table is missed first. -/
def freeze (draft : Draft) : Except LayoutError Descriptor := do
  let attributes ← draft.attributes.get draft.id "freeze"
  let dispatch ← draft.dispatch.get draft.id "freeze"
  return {
    id := draft.id
    kind := draft.kind
    attributes
    dispatch
    symbols := draft.symbols
    vtabOffset := draft.vtabOffset
    attrOffset := draft.attrOffset
    ownSlotsOffset := draft.ownSlotsOffset
    size := draft.size
    alignment := draft.alignment
    slotCount := dispatch.slotCount
    pointerSize := draft.pointerSize
    vtableHeaderSize := draft.vtableHeaderSize
    ancestors := draft.parent.elim [] Descriptor.chain }

end Draft

end ObjectLayout
