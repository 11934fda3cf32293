import ObjectLayout.AttributeType.Parser
import ObjectLayout.Class.Definition
import ObjectLayout.Json.Record
import ObjectLayout.Json.Storable

/-!
# The written forms of classes

Declarations, methods and definitions as JSON values. A type is written as its text. A declaration
always reads back from its written form (`ClassDecl.ofJson?_toJson`).
-/

set_option autoImplicit false

namespace ObjectLayout

/-- The type whose text a string is. -/
def AttributeType.ofJson? (value : Json) : Option AttributeType :=
  value.text?.bind fun text => (AttributeType.parse text).toOption

/-- The type as its text. -/
def AttributeType.toJson (type : AttributeType) : Json := .ofText type.text

/-- The identity that a string is. -/
def ClassId.ofJson? (value : Json) : Option ClassId := value.text?.map ClassId.mk

/-- The identity as a string. -/
def ClassId.toJson (id : ClassId) : Json := .ofText id.text

/-- An identity is read back from its text. -/
theorem ClassId.ofJson?_toJson (id : ClassId) : ofJson? id.toJson = some id := rfl

namespace ExtensionKind

/-- The name of the kind in a document. -/
def caseName : ExtensionKind → String
  | staticSignature => "static_signature"
  | inferredPerCall => "inferred_per_call"

/-- The kind of that name. -/
def ofCaseName? (name : String) : Option ExtensionKind :=
  [staticSignature, inferredPerCall].find? fun kind => kind.caseName == name

/-- The kind that a value names. -/
def ofJson? (stored : Bool) (value : Json) : Option ExtensionKind :=
  (value.caseName? stored).bind ofCaseName?

/-- The kind as its name. -/
def toJson (kind : ExtensionKind) : Json := .ofText kind.caseName

/-- A kind is read back from its name, be it stored or not. -/
theorem ofJson?_toJson (stored : Bool) (kind : ExtensionKind) :
    ofJson? stored kind.toJson = some kind := by
  cases kind <;> cases stored <;> decide

end ExtensionKind

namespace DeclForm

/-- The name of the form in a document. -/
def caseName : DeclForm → String
  | classForm => "class"
  | instanceForm => "instance"
  | primitiveForm => "primitive"

/-- The form of that name. -/
def ofCaseName? (name : String) : Option DeclForm :=
  [classForm, instanceForm, primitiveForm].find? fun form => form.caseName == name

/-- The form that a value names. -/
def ofJson? (stored : Bool) (value : Json) : Option DeclForm :=
  (value.caseName? stored).bind ofCaseName?

/-- The form as its name. -/
def toJson (form : DeclForm) : Json := .ofText form.caseName

/-- A form is read back from its name, be it stored or not. -/
theorem ofJson?_toJson (stored : Bool) (form : DeclForm) :
    ofJson? stored form.toJson = some form := by
  cases form <;> cases stored <;> decide

end DeclForm

namespace ClassDecl

/-- The names of the fields in a document. -/
def fieldNames : List String := ["id", "form", "bases", "kind"]

/-- The declaration that the values of its fields write. -/
def ofFields? (stored : Bool) : List (Option Json) → Option ClassDecl
  | [id, form, bases, kind] => do
    let id ← Json.required ClassId.ofJson? id
    let form ← Json.defaulted default (DeclForm.ofJson? stored) form
    let bases ← Json.defaulted [] (Json.list? ClassId.ofJson?) bases
    let kind ← Json.defaulted default (ExtensionKind.ofJson? stored) kind
    return { id, form, bases, kind }
  | _ => none

/-- The declaration that a value writes. -/
def ofJson? (value : Json) : Option ClassDecl :=
  (value.record? fieldNames 1).bind (ofFields? false)

/-- The members of the object that writes the declaration. -/
def jsonMembers (decl : ClassDecl) : List (String × Json) :=
  [("id", decl.id.toJson), ("form", decl.form.toJson),
   ("bases", .ofList ClassId.toJson decl.bases), ("kind", decl.kind.toJson)]

/-- The declaration as an object. -/
def toJson (decl : ClassDecl) : Json := .ofMembers decl.jsonMembers

/-- A declaration is read back from its object. -/
theorem ofJson?_toJson (decl : ClassDecl) : ofJson? decl.toJson = some decl := by
  have hbases := Json.list?_ofList fun base (_ : base ∈ decl.bases) => base.ofJson?_toJson
  unfold ofJson? toJson jsonMembers Json.ofMembers Json.record?
  simp [Json.namedMembers?, Json.member?, fieldNames, ofFields?, Json.required, Json.defaulted,
    ClassId.ofJson?_toJson, DeclForm.ofJson?_toJson, ExtensionKind.ofJson?_toJson, hbases]

end ClassDecl

/-- The signature of which a document states the parameters, the result, or both. A method without
stated parameters has none, and without a stated result it answers a managed object. -/
def MethodSignature.ofStated? :
    Option (List AttributeType) → Option AttributeType → Option MethodSignature
  | none, none => none
  | params, returns => some { params := params.getD [], returns := returns.getD .object }

namespace MethodDecl

/-- The names of the fields in a document. -/
def fieldNames : List String := ["name", "params", "returns", "implementation"]

/-- The method that a value writes. -/
def ofJson? (value : Json) : Option MethodDecl :=
  match value.record? fieldNames 1 with
  | some [name, params, returns, implementation] => do
    let name ← Json.required Json.text? name
    let params ← Json.optional (Json.list? AttributeType.ofJson?) params
    let returns ← Json.optional AttributeType.ofJson? returns
    let implementation ← Json.optional Json.text? implementation
    return { name, signature := MethodSignature.ofStated? params returns, implementation }
  | _ => none

/-- The members that write a signature. -/
def signatureMembers : Option MethodSignature → List (String × Json)
  | none => []
  | some s => [("params", .ofList AttributeType.toJson s.params), ("returns", s.returns.toJson)]

/-- The method as an object without the members for what is not stated. -/
def toJson (method : MethodDecl) : Json :=
  .ofMembers <|
    ("name", .ofText method.name) :: signatureMembers method.signature
      ++ method.implementation.toList.map fun symbol => ("implementation", .ofText symbol)

end MethodDecl

namespace ClassDefinition

/-- The members of a definition that its declaration does not have. -/
def bodyNames : List String := ["attributes", "methods"]

/-- The definition that an object writes. The members outside the body are stored first and then
looked through for the declaration. -/
def ofMembers? (members : List (Option String × Json)) : Option ClassDefinition := do
  let others := members.filter fun (name, _) => name.all (· ∉ bodyNames)
  guard (others.all fun (_, value) => value.isStorable (Json.nestingLimit - 1))
  match ← Json.namedMembers? bodyNames members with
  | [attributes, methods] =>
    let decl ← (← Json.namedMembers? ClassDecl.fieldNames others) |> ClassDecl.ofFields? true
    let attributes ←
      Json.defaulted [] (Json.list? (Json.pair? Json.text? AttributeType.ofJson?)) attributes
    let methods ← Json.defaulted [] (Json.list? MethodDecl.ofJson?) methods
    return { toClassDecl := decl, attributes, methods }
  | _ => none

/-- The definition that a value writes. -/
def ofJson? (value : Json) : Option ClassDefinition := value.members?.bind ofMembers?

/-- An attribute as an array of its name and its type. -/
def attributeJson (entry : String × AttributeType) : Json :=
  .arr [.ofText entry.1, entry.2.toJson]

/-- The definition as an object: the members of the declaration, and then the body. -/
def toJson (definition : ClassDefinition) : Json :=
  .ofMembers <| definition.jsonMembers ++
    [("attributes", .ofList attributeJson definition.attributes),
     ("methods", .ofList MethodDecl.toJson definition.methods)]

end ClassDefinition

end ObjectLayout
