import ObjectLayout.Text.DecimalDigit

/-!
# JSON values

A JSON value as it is written: members keep their order, a name may occur more than once, and a
number keeps the way in which it is written. A string may hold an escape for half a surrogate pair;
then it stands for no text.
-/

set_option autoImplicit false

namespace ObjectLayout

/-- A number as it is written. -/
inductive Number where
  /-- A sign and digits. -/
  | integer (negative : Bool) (magnitude : Nat)
  /-- A sign, and digits times a power of ten. -/
  | decimal (negative : Bool) (significand : Nat) (exponent : Int)
deriving DecidableEq, Repr

/-- The number of decimal digits, and `0` for zero. -/
def digitCount (n : Nat) : Nat :=
  if n = 0 then 0 else (Nat.toDigits 10 n).length

/-- The least natural number that rounds to no floating-point number of eight bytes. -/
def floatBound : Nat := Nat.pow 2 1024 - Nat.pow 2 970

/-- Whether the magnitude rounds to a floating-point number of eight bytes. Exponents far from the
bound are settled by the number of digits. -/
def Number.isFinite : Number → Bool
  | .integer _ magnitude => magnitude < floatBound
  | .decimal _ significand exponent =>
    let digits : Int := digitCount significand + exponent
    if significand = 0 ∨ digits ≤ 300 then true
    else if 310 < digits then false
    else significand * Nat.pow 10 exponent.toNat < floatBound * Nat.pow 10 (-exponent).toNat

/-- The natural number that is written, provided that it has no sign and no fraction or exponent. -/
def Number.toNat? : Number → Option Nat
  | .integer false magnitude => some magnitude
  | _ => none

/-- A JSON value. -/
inductive Json where
  | null
  | bool (value : Bool)
  | num (value : Number)
  /-- A string, with its text if it stands for one. -/
  | str (text : Option String)
  | arr (items : List Json)
  | obj (members : List (Option String × Json))
deriving Repr, Inhabited

namespace Json

/-- The string with that text. -/
def ofText (text : String) : Json := str (some text)

/-- The number without a sign. -/
def ofNat (n : Nat) : Json := num (.integer false n)

/-- The number with the sign of an integer. -/
def ofInt (n : Int) : Json := num (.integer (n < 0) n.natAbs)

/-- The array of the encoded items. -/
def ofList {α : Type} (encode : α → Json) (items : List α) : Json := arr (items.map encode)

/-- The encoded value, or `null`. -/
def ofOption {α : Type} (encode : α → Json) (value : Option α) : Json := value.elim null encode

/-- The object with those members. -/
def ofMembers (members : List (String × Json)) : Json :=
  obj (members.map fun (name, value) => (some name, value))

/-- The text of a string that stands for one. -/
def text? : Json → Option String
  | str text => text
  | _ => none

/-- The integer that a number without fraction and exponent writes. -/
def int? : Json → Option Int
  | num (.integer negative magnitude) => some (if negative then -magnitude else magnitude)
  | _ => none

/-- The items of an array. -/
def items? : Json → Option (List Json)
  | arr items => some items
  | _ => none

/-- The members of an object. -/
def members? : Json → Option (List (Option String × Json))
  | obj members => some members
  | _ => none

end Json

end ObjectLayout
