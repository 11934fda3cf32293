import ObjectLayout.AttributeType.Basic
import ObjectLayout.Table.OrderedMap

/-!
# Attribute tables

The attributes of a class with their types, in layout order. A table derived from that of the parent
holds the inherited attributes; its owner may repeat one of them with the same type, and every other
name it declares is new.
-/

set_option autoImplicit false

namespace ObjectLayout

/-- What a declaration adds to a table. -/
inductive Declared where
  /-- A new attribute. -/
  | new
  /-- Nothing: the attribute was inherited with the same type. -/
  | redundant
deriving DecidableEq, Repr

/-- The attributes of a class. -/
structure AttributeTable where
  owner : ClassId
  /-- The attributes with their types, in layout order. -/
  types : OrderedMap String AttributeType := ∅
  /-- The names that the owner itself has declared. -/
  declared : List String := []
deriving DecidableEq, Repr

namespace AttributeTable

/-- The table of a class without attributes. -/
def empty (owner : ClassId) : AttributeTable := { owner }

/-- The attributes with their types, in layout order. -/
def toList (t : AttributeTable) : List (String × AttributeType) := t.types.toList

/-- The names of the attributes, in layout order. -/
def names (t : AttributeTable) : List String := t.types.keys

/-- The type of an attribute. -/
def get? (t : AttributeTable) (name : String) : Option AttributeType := t.types.get? name

/-- Whether the owner itself has declared the name. -/
def isLocal (t : AttributeTable) (name : String) : Bool := t.declared.contains name

/-- The same attributes for a subclass that has declared none of them yet. -/
def derive (t : AttributeTable) (owner : ClassId) : AttributeTable :=
  { t with owner, declared := [] }

/-- Declares an attribute on behalf of the owner. A name may be declared once, and an inherited one
with the inherited type only. -/
def declare (t : AttributeTable) (name : String) (type : AttributeType) :
    Except LayoutError (AttributeTable × Declared) :=
  if name ∈ t.declared then .error (.duplicateName t.owner .attributes name)
  else
    match t.get? name with
    | none =>
      .ok ({ t with types := t.types.insert name type, declared := name :: t.declared }, .new)
    | some inherited =>
      if inherited = type then .ok ({ t with declared := name :: t.declared }, .redundant)
      else .error (.attributeRedefinition t.owner name inherited.text type.text)

/-- Declares attributes one after another. The answer holds the names that were redundant, in order,
or the first error; the table has the effect of the declarations before that error. -/
def declareAll (t : AttributeTable) :
    List (String × AttributeType) → AttributeTable × Except LayoutError (List String)
  | [] => (t, .ok [])
  | (name, type) :: rest =>
    match t.declare name type with
    | .error e => (t, .error e)
    | .ok (t', .new) => t'.declareAll rest
    | .ok (t', .redundant) =>
      let (t'', names) := t'.declareAll rest
      (t'', names.map (name :: ·))

/-- Declares every attribute of another table, in its order. -/
def extendFrom (t own : AttributeTable) : AttributeTable × Except LayoutError (List String) :=
  t.declareAll own.toList

/-- The table of a class that inherits nothing and declares the listed attributes. -/
def ofList (owner : ClassId) (attributes : List (String × AttributeType)) :
    Except LayoutError AttributeTable :=
  match (empty owner).declareAll attributes with
  | (t, .ok _) => .ok t
  | (_, .error e) => .error e

/-- The attributes in words: name and type of each, separated by commas. -/
def text (t : AttributeTable) : String :=
  ", ".intercalate (t.toList.map fun (name, type) => name ++ ": " ++ type.text)

end AttributeTable

end ObjectLayout
