import ObjectLayout.Descriptor.Basic
import ObjectLayout.Text.Hexadecimal

/-!
# Layout reports

What a listing shows of a descriptor: where each attribute lies and which body each slot holds, with
every identity and type as text.
-/

set_option autoImplicit false

namespace ObjectLayout

/-- The line of a report about one attribute. -/
structure AttributeEntry where
  name : String
  type : String
  /-- Its distance from the base address. -/
  offset : Nat
  size : Nat
  /-- The class that placed it. -/
  declaredIn : String
deriving DecidableEq, Repr

/-- The line of a report about one method. -/
structure MethodEntry where
  name : String
  slot : Nat
  vtableOffset : Nat
  implementation : String
  /-- The text of the signature, once one has been stated. -/
  signature : Option String
  introducedBy : String
deriving DecidableEq, Repr

/-- What a listing shows of a descriptor. -/
structure LayoutReport where
  id : String
  name : String
  kind : ExtensionKind
  parent : Option String
  /-- The offset of the pointer to the virtual table in an instance. -/
  vtabOffset : Nat
  /-- The offset at which the attributes that the class introduces begin. -/
  attrOffset : Nat
  size : Nat
  alignment : Nat
  vtableSize : Nat
  /-- The attributes, in layout order. -/
  attributes : List AttributeEntry
  methods : List MethodEntry
deriving DecidableEq, Repr

/-- The line of a report about an attribute of the class. -/
def ClassLayout.attributeEntry (c : ClassLayout) (name : String) (v : Variable) : AttributeEntry :=
  { name
    type := v.type.text
    offset := v.offset.value
    size := v.size
    declaredIn := (v.declaredIn c.id).text }

/-- The line of a report about a method of the class. The offset is looked up by name, and is `0`
for a method that is not found. -/
def ClassLayout.methodEntry (c : ClassLayout) (name : String) (slot : MethodSlot) : MethodEntry :=
  { name
    slot := slot.index
    vtableOffset := (c.methodOffset name).toOption.getD 0
    implementation := slot.implementation
    signature := slot.signature.map MethodSignature.text
    introducedBy := slot.introducedBy.text }

/-- The report about a descriptor. -/
def Descriptor.report (d : Descriptor) : LayoutReport :=
  { id := d.id.text
    name := d.name
    kind := d.kind
    parent := d.parent?.map fun p => p.id.text
    vtabOffset := d.vtabOffset
    attrOffset := d.attrOffset
    size := d.size
    alignment := d.alignment.value
    vtableSize := d.vtableSize
    attributes := d.symbols.toList.map fun (name, v) => d.attributeEntry name v
    methods := d.dispatch.toList.map fun (name, slot) => d.methodEntry name slot }

/-- The entry as a line of a listing. -/
def AttributeEntry.line (e : AttributeEntry) : String :=
  "  0x" ++ Text.hexadecimalPadded 4 e.offset ++ " " ++ Text.column 16 e.name ++ " "
    ++ Text.column 12 e.type ++ " " ++ e.declaredIn

/-- The entry as a line of a listing. -/
def MethodEntry.line (e : MethodEntry) : String :=
  s!"  [{e.slot}] +0x{Text.hexadecimal e.vtableOffset} {e.name} -> {e.implementation}"

/-- The report as a listing: two lines about the class, then a line for each attribute and for each
method. -/
def LayoutReport.lines (r : LayoutReport) : List String :=
  let parent := r.parent.elim "" (" : " ++ ·)
  let vtab := Text.hexadecimal r.vtabOffset
  let own := Text.hexadecimal r.attrOffset
  [s!"{r.id} ({r.kind}){parent}  size={r.size} align={r.alignment}",
   s!"  vtab ptr @ 0x{vtab}, own attributes @ 0x{own}"]
    ++ r.attributes.map AttributeEntry.line ++ r.methods.map MethodEntry.line

/-- The report as a listing in which every line is closed by a line feed. -/
def LayoutReport.listing (r : LayoutReport) : String :=
  String.join (r.lines.map (· ++ "\n"))

end ObjectLayout
