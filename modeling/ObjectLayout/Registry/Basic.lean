import ObjectLayout.Log.Event

/-!
# Registries

A registry holds the descriptors of the classes built so far, one for each identity. While a class
is built it stands on the stack of classes in progress; asking for a class on that stack closes a
cycle. A registry also keeps a journal of what happened in it, which no build depends on.
-/

set_option autoImplicit false

namespace ObjectLayout

/-- Where definitions are found for classes that have not been built. -/
structure ClassSource where
  definitions : DefinitionSet
  /-- For some classes, another one that the source has built before it answers for the class. -/
  ahead : OrderedMap ClassId ClassId := ∅
deriving DecidableEq, Repr

/-- What a registry is set up with, which stays the same for good. -/
structure RegistrySetup where
  /-- The constants of the target. -/
  config : LayoutConfig := {}
  /-- Where other classes are found, if anywhere. -/
  source : Option ClassSource := none
deriving DecidableEq, Repr

instance : Inhabited RegistrySetup := ⟨{}⟩

/-- The setup with a configuration that has to be valid. -/
def RegistrySetup.ofConfig (config : LayoutConfig) (source : Option ClassSource) :
    Except LayoutError RegistrySetup :=
  config.validate.map fun _ => { config, source }

/-- What passed between a registry and its source. -/
inductive SourceRecord where
  /-- A class was asked for and found or not, while the listed classes of the source were in
  progress. -/
  | asked (cls : ClassId) (found : Bool) (building : List ClassId)
  /-- The source had a class built ahead of its answer, with this size or this error. -/
  | builtAhead (cls : ClassId) (size : Except LayoutError Nat)
deriving Repr

/-- What happened in a registry, the latest last. -/
structure Journal where
  events : Array Event := #[]
  /-- What passed between the registry and its source. -/
  requests : Array SourceRecord := #[]
deriving Repr, Inhabited

/-- The descriptors built so far, and the classes in progress. -/
structure Registry where
  /-- The descriptors by identity. -/
  entries : OrderedMap ClassId Descriptor := ∅
  /-- The classes in progress, the one begun last at the end. -/
  inProgress : List ClassId := []
  /-- What happened so far. -/
  journal : Journal := {}
deriving Repr, Inhabited

namespace Registry

instance : EmptyCollection Registry := ⟨{}⟩

/-- The descriptor of a class. -/
def get? (registry : Registry) (cls : ClassId) : Option Descriptor := registry.entries.get? cls

/-- Whether the class has a descriptor. -/
def contains (registry : Registry) (cls : ClassId) : Bool := registry.entries.contains cls

/-- The number of classes that have a descriptor. -/
def size (registry : Registry) : Nat := registry.entries.size

/-- Whether no class has a descriptor. -/
def isEmpty (registry : Registry) : Bool := registry.entries.isEmpty

/-- The classes that have a descriptor, in ascending order. -/
def ids (registry : Registry) : List ClassId := ClassId.sort registry.entries.keys

/-- Whether the class is in progress. -/
def isBuilding (registry : Registry) (cls : ClassId) : Bool := registry.inProgress.contains cls

/-- The same registry with an empty journal. -/
def clearJournal (registry : Registry) : Registry := { registry with journal := {} }

/-- The cycle that asking for a class closes: the classes in progress from that class on, and then
the class again. -/
def cycleThrough? (registry : Registry) (cls : ClassId) : Option LayoutError :=
  if registry.isBuilding cls then
    some (.cyclicDefinition cls (registry.inProgress.dropWhile (· ≠ cls) ++ [cls]))
  else none

/-- Writes an event into the journal. -/
def note (event : Event) : LayoutM Registry Unit :=
  modify fun registry =>
    { registry with
      journal := { registry.journal with events := registry.journal.events.push event } }

/-- Writes what passed with the source into the journal. -/
def noteRequest (record : SourceRecord) : LayoutM Registry Unit :=
  modify fun registry =>
    { registry with
      journal := { registry.journal with requests := registry.journal.requests.push record } }

/-- The registry when a build of the class has begun. -/
def begin (registry : Registry) (cls : ClassId) : Registry :=
  { registry with inProgress := registry.inProgress ++ [cls] }

/-- The registry when a build of the class is over: wherever the class stands last on the stack, it
is taken from there. -/
def release (registry : Registry) (cls : ClassId) : Registry :=
  { registry with inProgress := (registry.inProgress.reverse.erase cls).reverse }

/-- Runs an action while the class is in progress, unless it is in progress already. The class is
released however the action ends. -/
def whileBuilding {α : Type} (cls : ClassId) (action : LayoutM Registry α) : LayoutM Registry α :=
  ExceptT.mk fun registry =>
    match registry.cycleThrough? cls with
    | some error => (.error error, registry)
    | none =>
      let (answer, after) := action.exec (registry.begin cls)
      (answer, after.release cls)

/-- Registers a descriptor. The descriptor registered first for a class stays, and is the answer. -/
def publish (descriptor : Descriptor) : LayoutM Registry Descriptor := do
  match (← get).get? descriptor.id with
  | some existing => return existing
  | none =>
    modify fun registry =>
      { registry with entries := registry.entries.insert descriptor.id descriptor }
    return descriptor

end Registry

end ObjectLayout
