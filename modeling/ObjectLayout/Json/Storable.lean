import ObjectLayout.Json.Basic

/-!
# Values that can be stored

A value that is kept apart from its text, until it is known what it is, has to be storable: its
strings stand for texts, its numbers lie in the range of floating-point numbers, and its nesting is
bounded.
-/

set_option autoImplicit false

namespace ObjectLayout.Json

/-- The number of brackets that a text may nest. -/
def nestingLimit : Nat := 127

mutual

/-- Whether the value can be stored where so many brackets may still be opened. -/
def isStorable : Nat → Json → Bool
  | _, null | _, bool _ => true
  | _, num n => n.isFinite
  | _, str text => text.isSome
  | 0, arr _ => false
  | 0, obj _ => false
  | depth + 1, arr items => areStorable depth items
  | depth + 1, obj members => membersStorable depth members

/-- Whether every item can be stored. -/
def areStorable (depth : Nat) : List Json → Bool
  | [] => true
  | item :: items => isStorable depth item && areStorable depth items

/-- Whether every member can be stored. -/
def membersStorable (depth : Nat) : List (Option String × Json) → Bool
  | [] => true
  | (name, value) :: members =>
    name.isSome && isStorable depth value && membersStorable depth members

end

end ObjectLayout.Json
