import ObjectLayout.Log.Event

/-!
# Specializations

The compiled bodies of the methods of one class, as calls ask for them. Where bodies are bound once
a method has one body, for the argument types of the first call; otherwise it has one for each list
of argument types that occurs.
-/

set_option autoImplicit false

namespace ObjectLayout

/-- A compiled body of a method. -/
structure Specialization where
  /-- The number of bodies compiled before. -/
  id : Nat
  method : String
  slot : Nat
  /-- The types of the arguments of the call that asked for the body. -/
  argTypes : List AttributeType
  implementation : String
deriving DecidableEq, Repr

/-- Argument types in parentheses. -/
def argumentText (types : List AttributeType) : String :=
  "(" ++ AttributeType.joinTexts ", " types ++ ")"

/-- The bodies compiled for the methods of one class. -/
structure SpecializationTable where
  /-- The class whose methods these are. -/
  descriptor : Descriptor
  /-- The bodies by method and argument types, in the order in which they were compiled. Where
  bodies are bound once the list of types is empty. -/
  entries : OrderedMap (String × List AttributeType) Specialization := ∅
deriving DecidableEq, Repr

namespace SpecializationTable

/-- A table without bodies. -/
def empty (descriptor : Descriptor) : SpecializationTable := { descriptor }

/-- The number of bodies. -/
def size (t : SpecializationTable) : Nat := t.entries.size

/-- Whether there are no bodies. -/
def isEmpty (t : SpecializationTable) : Bool := t.entries.isEmpty

/-- The bodies, in the order in which they were compiled. -/
def toList (t : SpecializationTable) : List Specialization := t.entries.values

/-- The key of the body that a call needs. -/
def key (t : SpecializationTable) (method : String) (argTypes : List AttributeType) :
    String × List AttributeType :=
  match t.descriptor.kind.lookupPolicy with
  | .boundOnce => (method, [])
  | .perCallSite => (method, argTypes)

/-- The symbol of the body that a call needs: that of the slot, with the argument types in brackets
where bodies depend on them. -/
def symbol (t : SpecializationTable) (slot : MethodSlot) (argTypes : List AttributeType) : String :=
  match t.descriptor.kind.lookupPolicy with
  | .boundOnce => slot.implementation
  | .perCallSite =>
    slot.implementation ++ "[" ++ AttributeType.joinTexts "," argTypes ++ "]"

/-- The error for a call whose argument types are not the expected ones. -/
def mismatch (t : SpecializationTable) (method expected : String)
    (argTypes : List AttributeType) : LayoutError :=
  .methodSignatureMismatch t.descriptor.id method expected (argumentText argTypes)

/-- Refuses a call that disagrees with the signature of a slot whose body is bound once. -/
def checkSignature (t : SpecializationTable) (slot : MethodSlot) (method : String)
    (argTypes : List AttributeType) : Except LayoutError Unit :=
  match t.descriptor.kind.lookupPolicy, slot.signature with
  | .boundOnce, some signature =>
    if signature.params = argTypes then .ok ()
    else .error (t.mismatch method signature.text argTypes)
  | _, _ => .ok ()

/-- The body for a call, with the table that has it. A body that exists already is answered if its
argument types are those of the call. -/
def specialize (t : SpecializationTable) (method : String) (argTypes : List AttributeType) :
    Except LayoutError (SpecializationTable × Specialization) := do
  let slot ← t.descriptor.methodSlot method
  t.checkSignature slot method argTypes
  match t.entries.get? (t.key method argTypes) with
  | some existing =>
    if existing.argTypes = argTypes then return (t, existing)
    else throw (t.mismatch method (argumentText existing.argTypes) argTypes)
  | none =>
    let added : Specialization :=
      { id := t.size
        method
        slot := slot.index
        argTypes
        implementation := t.symbol slot argTypes }
    return ({ t with entries := t.entries.insert (t.key method argTypes) added }, added)

/-- The body for a call, with the table that has it and what there is to report: a body that was not
there before. -/
def specializeNoting (t : SpecializationTable) (method : String) (argTypes : List AttributeType) :
    Except LayoutError (SpecializationTable × Specialization × List Event) := do
  let (after, body) ← t.specialize method argTypes
  let event := Event.bodyAdded t.descriptor.name body.implementation body.slot
  return (after, body, if t.size < after.size then [event] else [])

end SpecializationTable

end ObjectLayout
