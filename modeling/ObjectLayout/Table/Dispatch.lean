import ObjectLayout.Class.Method
import ObjectLayout.Table.OrderedMap

/-!
# Dispatch tables

The methods of a class with their slots of the virtual table. A method keeps its slot for good: an
override replaces the body in the inherited slot, and a new method takes the next free slot. So the
slot of a method is its position in the table.
-/

set_option autoImplicit false

namespace ObjectLayout

/-- A slot of a virtual table. -/
structure MethodSlot where
  index : Nat
  /-- The signature of the method, once one has been stated. -/
  signature : Option MethodSignature
  /-- The symbol of the body in the slot. -/
  implementation : String
  /-- The class whose body is in the slot. -/
  definedIn : ClassId
  /-- The class that introduced the slot. -/
  introducedBy : ClassId
deriving DecidableEq, Repr

namespace MethodSlot

/-- The body in a slot is an override when another class introduced the slot. -/
def IsOverride (slot : MethodSlot) : Prop := slot.definedIn ≠ slot.introducedBy

instance (slot : MethodSlot) : Decidable slot.IsOverride :=
  inferInstanceAs (Decidable (slot.definedIn ≠ slot.introducedBy))

/-- The slot in words: index, symbol, the signature if one is stated, and what it overrides. -/
def text (slot : MethodSlot) : String :=
  let signature :=
    match slot.signature with
    | some signature => " " ++ signature.text
    | none => ""
  let origin :=
    if slot.IsOverride then " [override of " ++ slot.introducedBy.text ++ "]" else ""
  "[" ++ toString slot.index ++ "] " ++ slot.implementation ++ signature ++ origin

/-- The slot with the body of a class that overrides the method. The first signature stated stays.
-/
def overrideBy (slot : MethodSlot) (cls : ClassId) (method : MethodDecl) : MethodSlot :=
  { slot with
    signature := slot.signature <|> method.signature
    implementation := method.symbolIn cls
    definedIn := cls }

end MethodSlot

/-- Where a method went. -/
inductive Placement where
  /-- Into an inherited slot. -/
  | overriding (slot : Nat)
  /-- Into a new slot. -/
  | introducing (slot : Nat)
deriving DecidableEq, Repr

/-- The index of the slot. -/
def Placement.slot : Placement → Nat
  | overriding slot => slot
  | introducing slot => slot

/-- The methods of a class. -/
structure DispatchTable where
  owner : ClassId
  /-- The slots by method, in slot order. -/
  slots : OrderedMap String MethodSlot := ∅
  /-- The names that the owner itself has declared. -/
  declared : List String := []
deriving DecidableEq, Repr

namespace DispatchTable

/-- The table of a class without methods. -/
def empty (owner : ClassId) : DispatchTable := { owner }

/-- The methods with their slots, in slot order. -/
def toList (t : DispatchTable) : List (String × MethodSlot) := t.slots.toList

/-- The names of the methods, in slot order. -/
def names (t : DispatchTable) : List String := t.slots.keys

/-- The slot of a method. -/
def get? (t : DispatchTable) (name : String) : Option MethodSlot := t.slots.get? name

/-- The method at a slot, with the slot. -/
def atSlot? (t : DispatchTable) (index : Nat) : Option (String × MethodSlot) :=
  t.slots.entryAt? index

/-- The number of slots. -/
def slotCount (t : DispatchTable) : Nat := t.slots.size

/-- The index of the last slot. -/
def maxSlot? (t : DispatchTable) : Option Nat :=
  if t.slotCount = 0 then none else some (t.slotCount - 1)

/-- The same slots for a subclass that has declared no method yet. -/
def derive (t : DispatchTable) (owner : ClassId) : DispatchTable :=
  { t with owner, declared := [] }

/-- Declares a method on behalf of the owner. A name may be declared once, and where both the slot
and the declaration state a signature they have to agree. -/
def addMethod (t : DispatchTable) (method : MethodDecl) :
    Except LayoutError (DispatchTable × Placement) :=
  if method.name ∈ t.declared then .error (.duplicateName t.owner .methods method.name)
  else
    let declared := method.name :: t.declared
    match t.get? method.name with
    | none =>
      let slot : MethodSlot :=
        { index := t.slotCount
          signature := method.signature
          implementation := method.symbolIn t.owner
          definedIn := t.owner
          introducedBy := t.owner }
      .ok ({ t with slots := t.slots.insert method.name slot, declared }, .introducing slot.index)
    | some slot =>
      let placed : DispatchTable × Placement :=
        ({ t with slots := t.slots.insert method.name (slot.overrideBy t.owner method), declared },
         .overriding slot.index)
      match slot.signature, method.signature with
      | some expected, some found =>
        if expected.IsCompatible found then .ok placed
        else .error (.methodSignatureMismatch t.owner method.name expected.text found.text)
      | _, _ => .ok placed

/-- The table of a class that inherits nothing and declares the listed methods. -/
def ofList (owner : ClassId) (methods : List MethodDecl) : Except LayoutError DispatchTable :=
  methods.foldlM (fun t method => (t.addMethod method).map Prod.fst) (empty owner)

end DispatchTable

end ObjectLayout
