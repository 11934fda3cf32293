import ObjectLayout.Descriptor.Draft
import ObjectLayout.Log.Level

/-!
# Events

What can be reported while classes are laid out. Each event has a level, a part of the program it
comes from, and a message; a line of the log shows all three.
-/

set_option autoImplicit false

namespace ObjectLayout

/-- Something that happened. -/
inductive Event where
  /-- So many definitions were read. -/
  | definitionsLoaded (count : Nat)
  /-- A class was asked for that has a descriptor already. -/
  | alreadyBuilt (cls : ClassId)
  /-- A class is built because another one needs it. -/
  | builtOnDemand (cls : ClassId)
  /-- A class declares an attribute that it inherits with the same type. -/
  | attributeRepeated (cls : ClassId) (name : String)
  /-- The layout of a class begins. -/
  | draftBegun (cls : ClassId) (vtabOffset attrOffset ownSlotsOffset : Nat)
  /-- A class has placed a field that it introduces. -/
  | fieldPlaced (field : PlacedField)
  /-- A class has placed a method. -/
  | methodPlaced (cls : ClassId) (method : String) (placement : Placement)
  /-- The layout of a class is finished. -/
  | built (layout : ClassLayout)
  /-- A body was compiled for a method of the class of that short name. -/
  | bodyAdded (name implementation : String) (slot : Nat)
deriving DecidableEq, Repr

namespace Event

/-- The level of the event. -/
def level : Event → LogLevel
  | definitionsLoaded _ => .info
  | attributeRepeated .. => .warn
  | fieldPlaced _ | methodPlaced .. => .trace
  | alreadyBuilt _ | builtOnDemand _ | draftBegun .. | built _ | bodyAdded .. => .debug

/-- The part of the program that the event comes from. -/
def target : Event → String
  | definitionsLoaded _ => "exttype_layout"
  | alreadyBuilt _ | attributeRepeated .. | built _ => "exttype_layout::exttype::builder"
  | builtOnDemand _ => "exttype_layout::exttype::registry"
  | draftBegun .. | fieldPlaced _ => "exttype_layout::exttype::descriptor"
  | methodPlaced .. => "exttype_layout::exttype::dispatch_table"
  | bodyAdded .. => "exttype_layout::exttype::variant"

/-- The event in words. -/
def message : Event → String
  | definitionsLoaded count => s!"{count} class definition(s) loaded"
  | alreadyBuilt cls => s!"{cls} already built, reusing descriptor"
  | builtOnDemand cls => s!"building {cls} on demand"
  | attributeRepeated cls name => s!"{cls}: attribute '{name}' repeats the inherited declaration"
  | draftBegun cls vtab attr slots =>
    s!"{cls}: vtab_offset={vtab} attr_offset={attr} own_slots_offset={slots}"
  | fieldPlaced f => s!"{f.cls}.{f.name}: {f.type} @ {f.offset} ({f.size} bytes)"
  | methodPlaced cls method (.overriding slot) => s!"{cls}.{method} overrides slot {slot}"
  | methodPlaced cls method (.introducing slot) => s!"{cls}.{method} gets new slot {slot}"
  | built layout => s!"built {layout.longText} size={layout.size} slots={layout.slotCount}"
  | bodyAdded name implementation slot => s!"{name}: new body {implementation} for slot {slot}"

/-- The line of the log that shows the event. Levels take five characters. -/
def line (event : Event) : String :=
  Text.column 5 event.level.label ++ " [" ++ event.target ++ "] " ++ event.message

end Event

end ObjectLayout
