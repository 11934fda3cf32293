/-!
# Class identities

A class is named by its scope and its own name, joined by dots: `module.Name`. Any text can stand
where an identity is expected; `ClassId.IsDotted` singles out those that a class may bear.
-/

set_option autoImplicit false

namespace ObjectLayout

/-- Letters and the underscore, all of ASCII. -/
def isIdentifierStart (c : Char) : Bool :=
  c.isAlpha || c == '_'

/-- Letters, digits and the underscore, all of ASCII. -/
def isIdentifierRest (c : Char) : Bool :=
  c.isAlphanum || c == '_'

/-- Whether the text is an identifier: a letter or an underscore, then letters, digits and
underscores. -/
def isIdentifier : List Char → Bool
  | [] => false
  | c :: cs => isIdentifierStart c && cs.all isIdentifierRest

/-- Whether the text is one identifier or several joined by dots. -/
def isDotted (cs : List Char) : Bool :=
  (cs.splitOn '.').all isIdentifier

/-- The identity of a class. -/
structure ClassId where
  text : String
deriving DecidableEq, Hashable, Repr, Inhabited

namespace ClassId

instance : ToString ClassId where
  toString id := id.text

/-- Identities are ordered by the code points of their texts. -/
instance : Ord ClassId where
  compare a b := compare a.text b.text

/-- The part of the identity after its last dot. -/
def shortName (id : ClassId) : String :=
  String.ofList (id.text.toList.reverse.takeWhile (· != '.')).reverse

/-- An identity that a class may bear is an identifier, or several joined by dots. -/
def IsDotted (id : ClassId) : Prop :=
  isDotted id.text.toList = true

instance (id : ClassId) : Decidable id.IsDotted :=
  inferInstanceAs (Decidable (isDotted id.text.toList = true))

/-- The identities in ascending order. -/
def sort (ids : List ClassId) : List ClassId :=
  ids.mergeSort fun a b => a.text ≤ b.text

end ClassId

end ObjectLayout
