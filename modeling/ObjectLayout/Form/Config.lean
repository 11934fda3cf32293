import ObjectLayout.Config
import ObjectLayout.Json.Reader
import ObjectLayout.Json.Record

/-!
# The written form of a configuration

A configuration is a record of three numbers, each of which has a default.
-/

set_option autoImplicit false

namespace ObjectLayout.LayoutConfig

/-- The names of the fields in a document. -/
def fieldNames : List String := ["pointer_size", "object_header_size", "vtable_header_size"]

/-- The configuration that a value writes. It need not be valid. -/
def ofJson? (value : Json) : Option LayoutConfig :=
  match value.record? fieldNames 0 with
  | some [pointer, object, vtable] => do
    let pointerSize ← Json.defaulted ({} : LayoutConfig).pointerSize Json.word? pointer
    let objectHeaderSize ← Json.defaulted ({} : LayoutConfig).objectHeaderSize Json.word? object
    let vtableHeaderSize ← Json.defaulted ({} : LayoutConfig).vtableHeaderSize Json.word? vtable
    return { pointerSize, objectHeaderSize, vtableHeaderSize }
  | _ => none

/-- The configuration as an object. -/
def toJson (config : LayoutConfig) : Json :=
  .ofMembers [
    ("pointer_size", .ofNat config.pointerSize),
    ("object_header_size", .ofNat config.objectHeaderSize),
    ("vtable_header_size", .ofNat config.vtableHeaderSize)]

/-- The configuration that a text writes. -/
def ofText? (text : String) : Option LayoutConfig :=
  (Json.parse? text).bind ofJson?

end ObjectLayout.LayoutConfig
