import ObjectLayout.Address.Word
import ObjectLayout.Json.Basic

/-!
# Records in JSON

A record is written as an object, whose members go by name, or as an array, whose items go by
position. Members that the record does not have are ignored. Each reader below takes the value of a
field, or `none` where the field is absent.
-/

set_option autoImplicit false

namespace ObjectLayout.Json

variable {α : Type}

/-- The value of a member, if there is one; several members of one name are refused. -/
def member? (members : List (Option String × Json)) (name : String) : Option (Option Json) :=
  match members.filterMap fun (key, value) => if key = some name then some value else none with
  | [] => some none
  | [value] => some (some value)
  | _ => none

/-- The values of named members. Every name in the object has to stand for a text. -/
def namedMembers? (names : List String) (members : List (Option String × Json)) :
    Option (List (Option Json)) :=
  if members.all fun (key, _) => key.isSome then names.mapM (member? members) else none

/-- The values of the fields of a record. An array has to have the first `required` fields, and no
more items than the record has fields. -/
def record? (names : List String) (required : Nat) : Json → Option (List (Option Json))
  | arr items =>
    if required ≤ items.length ∧ items.length ≤ names.length then
      some ((items.map some).rightpad names.length none)
    else none
  | obj members => namedMembers? names members
  | _ => none

/-- Reads a field that has to be present. -/
def required (decode : Json → Option α) (field : Option Json) : Option α :=
  field.bind decode

/-- Reads a field that has a value of its own where it is absent. -/
def defaulted (fallback : α) (decode : Json → Option α) : Option Json → Option α
  | none => some fallback
  | some value => decode value

/-- Reads a field that may be absent or `null`. -/
def optional (decode : Json → Option α) : Option Json → Option (Option α)
  | none | some null => some none
  | some value => (decode value).map some

/-- The machine word that is written. -/
def word? : Json → Option Nat
  | num n => n.toNat?.bind Word.fit?
  | _ => none

/-- The items of an array, each of them read. -/
def list? (decode : Json → Option α) (value : Json) : Option (List α) :=
  value.items?.bind fun items => items.mapM decode

/-- The two items of an array of two, each of them read. -/
def pair? {β : Type} (first : Json → Option α) (second : Json → Option β) :
    Json → Option (α × β)
  | arr [a, b] => do return (← first a, ← second b)
  | _ => none

/-- The name of a case: a string, or an object whose only member has that name and nothing to tell.
In a stored value an empty object tells nothing, too. -/
def caseName? (stored : Bool) : Json → Option String
  | str text => text
  | obj [(name, null)] => name
  | obj [(name, obj [])] => if stored then name else none
  | _ => none

/-- An array of encoded items reads back when every item does. -/
theorem list?_ofList {encode : α → Json} {decode : Json → Option α} {items : List α}
    (h : ∀ a ∈ items, decode (encode a) = some a) :
    list? decode (ofList encode items) = some items := by
  unfold list? ofList items?
  rw [Option.bind_some]
  induction items with
  | nil => rfl
  | cons a rest ih =>
    have ha := h a List.mem_cons_self
    have hrest := ih fun b hb => h b (List.mem_cons_of_mem a hb)
    rw [List.map_cons, List.mapM_cons, ha, hrest]
    rfl

end ObjectLayout.Json
