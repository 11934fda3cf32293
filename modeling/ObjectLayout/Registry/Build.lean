import ObjectLayout.Registry.Basic

/-!
# Building classes

A class is built from its definition and, possibly, a parent that is given with it. Its bases and
the classes it stores in place are taken from the registry, or else built from the source. That
nesting ends, since a class in progress is never begun again: `nestingBound` levels are enough, and
`buildNested` counts them down.
-/

set_option autoImplicit false

namespace ObjectLayout

namespace Registry

/-- Builds a class from its definition on behalf of another one. -/
abbrev NestedBuild := ClassDefinition → LayoutM Registry Descriptor

/-- Asks the source for the definition of a class. The source may have another class built before it
answers; it carries on whether or not that works. -/
def request (source : ClassSource) (nested : NestedBuild) (cls : ClassId) :
    LayoutM Registry (Option ClassDefinition) := do
  let definition := source.definitions.get? cls
  let building := source.definitions.keys.filter (← get).isBuilding
  noteRequest (.asked cls definition.isSome building)
  match (source.ahead.get? cls).bind source.definitions.get? with
  | none => return definition
  | some other =>
    let answer ← LayoutM.attempt (nested other)
    noteRequest (.builtAhead other.id (answer.map fun d => d.size))
    return definition

/-- The descriptor of a class that another one needs, or `none` where the class is not an extension
type. -/
def resolve (setup : RegistrySetup) (nested : NestedBuild) (cls : ClassId) :
    LayoutM Registry (Option Descriptor) := do
  let registry ← get
  match registry.cycleThrough? cls, registry.get? cls, setup.source with
  | some error, _, _ => throw error
  | none, some descriptor, _ => return some descriptor
  | none, none, none => return none
  | none, none, some source =>
    match ← request source nested cls with
    | none => return none
    | some definition =>
      note (.builtOnDemand cls)
      return some (← nested definition)

/-- The target against which the attributes of a class are sized. -/
def typeEnv (setup : RegistrySetup) (nested : NestedBuild) (user : ClassId) :
    TypeEnv Registry where
  pointerSize := setup.config.pointerSize
  embedded cls := do
    match ← resolve setup nested cls with
    | some descriptor => return ⟨descriptor.size, descriptor.alignment⟩
    | none => throw (.unresolvedType user cls)

/-- Adds the bases that are extension types to the parents found so far, each once. -/
def collectParents (setup : RegistrySetup) (nested : NestedBuild) :
    List Descriptor → List ClassId → LayoutM Registry (List Descriptor)
  | parents, [] => return parents
  | parents, base :: bases => do
    match ← resolve setup nested base with
    | none => collectParents setup nested parents bases
    | some descriptor =>
      if descriptor.id ∈ parents.map fun p => p.id then
        collectParents setup nested parents bases
      else collectParents setup nested (parents ++ [descriptor]) bases

/-- The one parent among those found, if there is any. A parent that descends from the class itself
closes a cycle, which is told from its root to the class. -/
def singleParent (cls : ClassId) : List Descriptor → Except LayoutError (Option Descriptor)
  | [] => .ok none
  | [parent] =>
    if parent.isSubtypeOf cls then
      .error (.cyclicDefinition cls (parent.chainIds.reverse ++ [cls]))
    else .ok (some parent)
  | parents => .error (.multipleInheritance cls (parents.map fun p => p.id))

/-- The parent of a class: the one given with it, or the base that is an extension type. -/
def resolveParent (setup : RegistrySetup) (nested : NestedBuild) (decl : ClassDecl)
    (given : Option Descriptor) : LayoutM Registry (Option Descriptor) := do
  let parents ← collectParents setup nested given.toList decl.bases
  singleParent decl.id parents

/-- The attribute table of a class: that of its parent, extended by the attributes that the class
declares. -/
def inheritAttributes (decl : ClassDecl) (parent : Option Descriptor) (own : AttributeTable) :
    LayoutM Registry AttributeTable := do
  match parent with
  | none => return own
  | some p =>
    let (table, answer) := (p.attributes.derive decl.id).extendFrom own
    let repeated ← answer
    repeated.forM fun name => note (.attributeRepeated decl.id name)
    return table

/-- The dispatch table with which a class begins. -/
def inheritMethods (decl : ClassDecl) (parent : Option Descriptor) : DispatchTable :=
  parent.elim (.empty decl.id) fun p => p.dispatch.derive decl.id

/-- Declares methods in a draft, one after another. -/
def addMethods : Draft → List MethodDecl → LayoutM Registry Draft
  | draft, [] => return draft
  | draft, method :: rest => do
    let (draft, placement) ← draft.addMethod method
    note (.methodPlaced draft.id method.name placement)
    addMethods draft rest

/-- Lays out a class below its parent and registers its descriptor. -/
def layOut (setup : RegistrySetup) (nested : NestedBuild) (definition : ClassDefinition)
    (parent : Option Descriptor) : LayoutM Registry Descriptor := do
  let decl := definition.toClassDecl
  let own ← AttributeTable.ofList decl.id definition.attributes
  let table ← inheritAttributes decl parent own
  let draft := Draft.ofDecl decl parent setup.config
  note (.draftBegun decl.id draft.vtabOffset draft.attrOffset draft.ownSlotsOffset)
  let env := typeEnv setup nested decl.id
  let draft ← draft.setAttributes table env fun field => note (.fieldPlaced field)
  let draft ← addMethods (draft.setDispatch (inheritMethods decl parent)) definition.methods
  let descriptor ← publish (← draft.freeze)
  note (.built descriptor.toClassLayout)
  return descriptor

/-- Builds a class, given how to build the classes that it needs. A class that is registered already
is not built again, whatever the definition says. -/
def buildWith (setup : RegistrySetup) (nested : NestedBuild) (definition : ClassDefinition)
    (given : Option Descriptor) : LayoutM Registry Descriptor := do
  definition.validate
  whileBuilding definition.id do
    match (← get).get? definition.id with
    | some existing =>
      note (.alreadyBuilt definition.id)
      return existing
    | none =>
      let parent ← resolveParent setup nested definition.toClassDecl given
      layOut setup nested definition parent

/-- Builds a class with at most so many levels of nesting. -/
def buildNested (setup : RegistrySetup) :
    Nat → ClassDefinition → Option Descriptor → LayoutM Registry Descriptor
  | 0, definition, _ => throw (.cyclicDefinition definition.id [])
  | levels + 1, definition, given =>
    buildWith setup (fun needed => buildNested setup levels needed none) definition given

/-- The number of levels that a build can nest: every class of the source may be in progress, and
the class built first besides; one more level finds out that a class is in progress. -/
def nestingBound (setup : RegistrySetup) : Nat :=
  setup.source.elim 0 (fun source => source.definitions.size) + 2

/-- Builds a class from its definition and the parent given with it. -/
def build (setup : RegistrySetup) (definition : ClassDefinition) (given : Option Descriptor) :
    LayoutM Registry Descriptor :=
  buildNested setup (nestingBound setup) definition given

/-- Builds a class from its definition alone. -/
def buildDefinition (setup : RegistrySetup) (definition : ClassDefinition) :
    LayoutM Registry Descriptor :=
  build setup definition none

end Registry

end ObjectLayout
