import ObjectLayout.Class.Kind
import ObjectLayout.Class.Method
import ObjectLayout.Table.OrderedMap

/-!
# Class definitions

A declaration says what a class is called and what it extends; a definition adds the attributes and
methods of its body. A set of definitions has one for each identity, in the order in which the
identities came in.
-/

set_option autoImplicit false

namespace ObjectLayout

/-- What was handed over as a class. -/
inductive DeclForm where
  | classForm
  | instanceForm
  | primitiveForm
deriving DecidableEq, Repr

instance : Inhabited DeclForm := ⟨.classForm⟩

/-- The declaration of a class. -/
structure ClassDecl where
  id : ClassId
  /-- What was handed over as the class. -/
  form : DeclForm := .classForm
  bases : List ClassId := []
  kind : ExtensionKind := .staticSignature
deriving DecidableEq, Repr

namespace ClassDecl

/-- The name of the class without its scope. -/
def name (decl : ClassDecl) : String := decl.id.shortName

/-- Accepts the declaration of a class whose identity and bases are dotted identifiers. What was
handed over is checked first, then the identity, then the bases in order. -/
def validate (decl : ClassDecl) : Except LayoutError Unit :=
  match decl.form with
  | .instanceForm => .error (.invalidClass decl.id .instanceForm)
  | .primitiveForm => .error (.invalidClass decl.id .primitiveForm)
  | .classForm =>
    if ¬ decl.id.IsDotted then .error (.invalidClass decl.id .badName)
    else
      match decl.bases.find? fun base => ¬ base.IsDotted with
      | some base => .error (.invalidClass decl.id (.badBase base))
      | none => .ok ()

/-- Adds a base after those declared so far. -/
def addBase (decl : ClassDecl) (base : ClassId) : ClassDecl :=
  { decl with bases := decl.bases ++ [base] }

end ClassDecl

/-- The declaration of a class with its body. -/
structure ClassDefinition extends ClassDecl where
  /-- The attributes with their types, in declaration order. -/
  attributes : List (String × AttributeType) := []
  methods : List MethodDecl := []
deriving DecidableEq, Repr

namespace ClassDefinition

/-- Adds an attribute after those declared so far. -/
def addAttribute (definition : ClassDefinition) (name : String) (type : AttributeType) :
    ClassDefinition :=
  { definition with attributes := definition.attributes ++ [(name, type)] }

/-- Adds a method after those declared so far. -/
def addMethod (definition : ClassDefinition) (method : MethodDecl) : ClassDefinition :=
  { definition with methods := definition.methods ++ [method] }

/-- Changes the method declared last, if there is one. -/
def modifyLastMethod? (definition : ClassDefinition) (change : MethodDecl → MethodDecl) :
    Option ClassDefinition :=
  definition.methods.getLast?.map fun method =>
    { definition with methods := definition.methods.dropLast ++ [change method] }

end ClassDefinition

/-- Definitions by identity, in the order in which the identities came in. -/
abbrev DefinitionSet := OrderedMap ClassId ClassDefinition

namespace DefinitionSet

/-- Adds a definition, in the place of an earlier one of the same identity. -/
def add (set : DefinitionSet) (definition : ClassDefinition) : DefinitionSet :=
  set.insert definition.id definition

/-- The set of the definitions in a list; of two with one identity the later counts. -/
def ofDefinitions (definitions : List ClassDefinition) : DefinitionSet :=
  definitions.foldl add ∅

/-- Every definition in the set stands under its own identity, and each identity occurs once. -/
structure IsKeyed (set : DefinitionSet) : Prop where
  /-- The identities are different from each other. -/
  nodup_keys : set.keys.Nodup
  /-- The definition found under an identity is that of the class. -/
  id_eq : ∀ {cls : ClassId} {definition : ClassDefinition}, set.get? cls = some definition →
    definition.id = cls

/-- The empty set is keyed. -/
theorem isKeyed_empty : IsKeyed ∅ where
  nodup_keys := List.nodup_nil
  id_eq h := by cases h

/-- Adding a definition puts it under its own identity. -/
theorem IsKeyed.add {set : DefinitionSet} (h : set.IsKeyed) (definition : ClassDefinition) :
    IsKeyed (set.add definition) where
  nodup_keys := OrderedMap.nodup_keys_insert h.nodup_keys _ _
  id_eq := by
    intro cls found hfound
    rcases OrderedMap.of_get?_insert hfound with ⟨rfl, rfl⟩ | hold
    · rfl
    · exact h.id_eq hold

/-- A definition of the set is found under its identity. -/
theorem IsKeyed.get?_id {set : DefinitionSet} (h : set.IsKeyed) {definition : ClassDefinition}
    (hmem : definition ∈ set.values) : set.get? definition.id = some definition := by
  obtain ⟨⟨cls, found⟩, hentry, rfl⟩ := List.mem_map.1 hmem
  have hget := OrderedMap.get?_eq_some_of_mem h.nodup_keys hentry
  rw [h.id_eq hget]
  exact hget

/-- A set that is made from definitions is keyed. -/
theorem isKeyed_ofDefinitions (definitions : List ClassDefinition) :
    IsKeyed (ofDefinitions definitions) := by
  have key : ∀ (l : List ClassDefinition) (set : DefinitionSet), set.IsKeyed →
      IsKeyed (l.foldl add set) := by
    intro l
    induction l with
    | nil => exact fun _ h => h
    | cons definition rest ih => exact fun set h => ih _ (h.add definition)
  exact key definitions ∅ isKeyed_empty

/-- A set that is made from definitions holds no others. -/
theorem mem_of_get?_ofDefinitions {definitions : List ClassDefinition} {cls : ClassId}
    {definition : ClassDefinition} (h : (ofDefinitions definitions).get? cls = some definition) :
    definition ∈ definitions := by
  have key : ∀ (l : List ClassDefinition) (set : DefinitionSet),
      (l.foldl add set).get? cls = some definition →
        definition ∈ l ∨ set.get? cls = some definition := by
    intro l
    induction l with
    | nil => exact fun _ h => .inr h
    | cons first rest ih =>
      intro set h
      rcases ih _ h with hmem | hget
      · exact .inl (List.mem_cons_of_mem _ hmem)
      · rcases OrderedMap.of_get?_insert hget with ⟨-, rfl⟩ | hold
        · exact .inl List.mem_cons_self
        · exact .inr hold
  rcases key definitions ∅ h with hmem | hnone
  · exact hmem
  · cases hnone

end DefinitionSet

end ObjectLayout
