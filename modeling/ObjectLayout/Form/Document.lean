import ObjectLayout.Form.Class
import ObjectLayout.Form.Config
import ObjectLayout.Json.Reader

/-!
# Documents

What a file of classes holds: definitions, and possibly a configuration. A document is an array of
definitions, or an object with the member `classes` and perhaps the member `config`. Since the two
are told apart only after reading, the whole document has to be storable.
-/

set_option autoImplicit false

namespace ObjectLayout

/-- What a file of classes holds. -/
structure LayoutDocument where
  /-- The configuration, if there is one. It need not be valid. -/
  config : Option LayoutConfig := none
  classes : List ClassDefinition
deriving DecidableEq, Repr

namespace LayoutDocument

/-- The document that a value writes. -/
def ofJson? (value : Json) : Option LayoutDocument := do
  guard (value.isStorable Json.nestingLimit)
  match value with
  | .arr items => return { classes := ← items.mapM ClassDefinition.ofJson? }
  | .obj members =>
    match ← Json.namedMembers? ["config", "classes"] members with
    | [config, classes] =>
      let config ← Json.optional LayoutConfig.ofJson? config
      let classes ← Json.required (Json.list? ClassDefinition.ofJson?) classes
      return { config, classes }
    | _ => none
  | _ => none

/-- The document that a text writes. -/
def ofText? (text : String) : Option LayoutDocument :=
  (Json.parse? text).bind ofJson?

/-- The definitions by identity. -/
def definitions (document : LayoutDocument) : DefinitionSet :=
  .ofDefinitions document.classes

end LayoutDocument

end ObjectLayout
