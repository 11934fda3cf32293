import ObjectLayout.Form.Class
import ObjectLayout.Report

/-!
# The written form of a report

A report as a JSON value. What a report does not have is `null` for the parent, and left out for the
signature of a method.
-/

set_option autoImplicit false

namespace ObjectLayout

namespace AttributeEntry

/-- The names of the fields in a document. -/
def fieldNames : List String := ["name", "type", "offset", "size", "declared_in"]

/-- The entry that a value writes. -/
def ofJson? (value : Json) : Option AttributeEntry :=
  match value.record? fieldNames 5 with
  | some [name, type, offset, size, declaredIn] => do
    let name ← Json.required Json.text? name
    let type ← Json.required Json.text? type
    let offset ← Json.required Json.word? offset
    let size ← Json.required Json.word? size
    let declaredIn ← Json.required Json.text? declaredIn
    return { name, type, offset, size, declaredIn }
  | _ => none

/-- The entry as an object. -/
def toJson (e : AttributeEntry) : Json :=
  .ofMembers [
    ("name", .ofText e.name), ("type", .ofText e.type), ("offset", .ofNat e.offset),
    ("size", .ofNat e.size), ("declared_in", .ofText e.declaredIn)]

end AttributeEntry

namespace MethodEntry

/-- The names of the fields in a document. -/
def fieldNames : List String :=
  ["name", "slot", "vtable_offset", "implementation", "signature", "introduced_by"]

/-- The entry that a value writes. -/
def ofJson? (value : Json) : Option MethodEntry :=
  match value.record? fieldNames 6 with
  | some [name, slot, vtableOffset, implementation, signature, introducedBy] => do
    let name ← Json.required Json.text? name
    let slot ← Json.required Json.word? slot
    let vtableOffset ← Json.required Json.word? vtableOffset
    let implementation ← Json.required Json.text? implementation
    let signature ← Json.optional Json.text? signature
    let introducedBy ← Json.required Json.text? introducedBy
    return { name, slot, vtableOffset, implementation, signature, introducedBy }
  | _ => none

/-- The entry as an object. -/
def toJson (e : MethodEntry) : Json :=
  .ofMembers <|
    [("name", .ofText e.name), ("slot", .ofNat e.slot), ("vtable_offset", .ofNat e.vtableOffset),
     ("implementation", .ofText e.implementation)]
      ++ (e.signature.toList.map fun text => ("signature", .ofText text))
      ++ [("introduced_by", .ofText e.introducedBy)]

end MethodEntry

namespace LayoutReport

/-- The names of the fields in a document. -/
def fieldNames : List String :=
  ["id", "name", "kind", "parent", "vtab_offset", "attr_offset", "size", "alignment", "vtable_size",
   "attributes", "methods"]

/-- The report that a value writes. -/
def ofJson? (value : Json) : Option LayoutReport :=
  match value.record? fieldNames 11 with
  | some [id, name, kind, parent, vtabOffset, attrOffset, size, alignment, vtableSize, attributes,
      methods] => do
    let id ← Json.required Json.text? id
    let name ← Json.required Json.text? name
    let kind ← Json.required (ExtensionKind.ofJson? false) kind
    let parent ← Json.optional Json.text? parent
    let vtabOffset ← Json.required Json.word? vtabOffset
    let attrOffset ← Json.required Json.word? attrOffset
    let size ← Json.required Json.word? size
    let alignment ← Json.required Json.word? alignment
    let vtableSize ← Json.required Json.word? vtableSize
    let attributes ← Json.required (Json.list? AttributeEntry.ofJson?) attributes
    let methods ← Json.required (Json.list? MethodEntry.ofJson?) methods
    return {
      id, name, kind, parent, vtabOffset, attrOffset, size, alignment, vtableSize, attributes,
      methods }
  | _ => none

/-- The report as an object. -/
def toJson (r : LayoutReport) : Json :=
  .ofMembers [
    ("id", .ofText r.id), ("name", .ofText r.name), ("kind", r.kind.toJson),
    ("parent", .ofOption .ofText r.parent), ("vtab_offset", .ofNat r.vtabOffset),
    ("attr_offset", .ofNat r.attrOffset), ("size", .ofNat r.size),
    ("alignment", .ofNat r.alignment), ("vtable_size", .ofNat r.vtableSize),
    ("attributes", .ofList AttributeEntry.toJson r.attributes),
    ("methods", .ofList MethodEntry.toJson r.methods)]

end LayoutReport

end ObjectLayout
