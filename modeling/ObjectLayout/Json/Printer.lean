import ObjectLayout.Json.Basic

/-!
# Writing JSON

Two forms of a value: the compact one has no spaces, and the indented one has an item or a member on
each line, two spaces further in than the brackets around it. A string without a text is written as
the empty one.
-/

set_option autoImplicit false

namespace ObjectLayout.Json

/-- The escape for a control character without a letter of its own. -/
def hexEscape (n : Nat) : List Char :=
  ['\\', 'u'] ++ (Nat.toDigits 16 n).leftpad 4 '0'

/-- How a character is written inside a string. -/
def escape (c : Char) : List Char :=
  match c with
  | '"' => ['\\', '"']
  | '\\' => ['\\', '\\']
  | '\x08' => ['\\', 'b']
  | '\x0c' => ['\\', 'f']
  | '\n' => ['\\', 'n']
  | '\r' => ['\\', 'r']
  | '\t' => ['\\', 't']
  | c => if c < ' ' then hexEscape c.toNat else [c]

/-- A text between quotation marks. -/
def quoted (text : Option String) : List Char :=
  '"' :: (text.getD "").toList.flatMap escape ++ ['"']

/-- The sign of a number. -/
def signChars (negative : Bool) : List Char := if negative then ['-'] else []

/-- A number. -/
def numberChars : Number → List Char
  | .integer negative magnitude => signChars negative ++ Nat.toDigits 10 magnitude
  | .decimal negative significand exponent =>
    signChars negative ++ Nat.toDigits 10 significand ++ 'e' :: signChars (exponent < 0)
      ++ Nat.toDigits 10 exponent.natAbs

mutual

/-- A value without spaces. -/
def compactChars : Json → List Char
  | null => "null".toList
  | bool true => "true".toList
  | bool false => "false".toList
  | num n => numberChars n
  | str text => quoted text
  | arr [] => ['[', ']']
  | arr (item :: items) => '[' :: compactChars item ++ compactItems items
  | obj [] => ['{', '}']
  | obj ((name, value) :: members) =>
    '{' :: quoted name ++ ':' :: compactChars value ++ compactMembers members

/-- What follows an item of an array. -/
def compactItems : List Json → List Char
  | [] => [']']
  | item :: items => ',' :: compactChars item ++ compactItems items

/-- What follows a member of an object. -/
def compactMembers : List (Option String × Json) → List Char
  | [] => ['}']
  | (name, value) :: members =>
    ',' :: quoted name ++ ':' :: compactChars value ++ compactMembers members

end

/-- A new line that is indented so many steps. -/
def newLine (depth : Nat) : List Char := '\n' :: List.replicate (2 * depth) ' '

mutual

/-- A value with a line for each item and member, inside so many brackets. -/
def prettyChars (depth : Nat) : Json → List Char
  | null => "null".toList
  | bool true => "true".toList
  | bool false => "false".toList
  | num n => numberChars n
  | str text => quoted text
  | arr [] => ['[', ']']
  | arr (item :: items) =>
    '[' :: newLine (depth + 1) ++ prettyChars (depth + 1) item ++ prettyItems depth items
  | obj [] => ['{', '}']
  | obj ((name, value) :: members) =>
    '{' :: newLine (depth + 1) ++ quoted name ++ ':' :: ' ' :: prettyChars (depth + 1) value
      ++ prettyMembers depth members

/-- What follows an item of an array inside so many brackets. -/
def prettyItems (depth : Nat) : List Json → List Char
  | [] => newLine depth ++ [']']
  | item :: items =>
    ',' :: newLine (depth + 1) ++ prettyChars (depth + 1) item ++ prettyItems depth items

/-- What follows a member of an object inside so many brackets. -/
def prettyMembers (depth : Nat) : List (Option String × Json) → List Char
  | [] => newLine depth ++ ['}']
  | (name, value) :: members =>
    ',' :: newLine (depth + 1) ++ quoted name ++ ':' :: ' ' :: prettyChars (depth + 1) value
      ++ prettyMembers depth members

end

/-- The compact form of a value. -/
def compact (value : Json) : String := String.ofList (compactChars value)

/-- The indented form of a value. -/
def pretty (value : Json) : String := String.ofList (prettyChars 0 value)

end ObjectLayout.Json
