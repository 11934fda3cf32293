/-!
# Hexadecimal numerals and columns

Addresses are written in lower-case hexadecimal. Columns of a listing are padded with spaces and
measured in characters.
-/

set_option autoImplicit false

namespace ObjectLayout.Text

/-- The number in lower-case hexadecimal, without leading zeros. -/
def hexadecimal (n : Nat) : String :=
  String.ofList (Nat.toDigits 16 n)

/-- The number in lower-case hexadecimal, with leading zeros up to `width` digits. -/
def hexadecimalPadded (width n : Nat) : String :=
  String.ofList ((Nat.toDigits 16 n).leftpad width '0')

/-- The text, followed by spaces up to `width` characters. A longer text is left as it is. -/
def column (width : Nat) (text : String) : String :=
  String.ofList (text.toList.rightpad width ' ')

end ObjectLayout.Text
