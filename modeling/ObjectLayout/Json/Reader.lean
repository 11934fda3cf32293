import ObjectLayout.Json.Basic

/-!
# Reading JSON

The reader takes a value from the front of a text and answers the rest. Reading a value consumes at
least one character, so the length of the text bounds the nesting: `readValue` and its companions
count it down.
-/

set_option autoImplicit false

namespace ObjectLayout.Json

/-- The four characters that may stand between the parts of a value. -/
def isSpace (c : Char) : Bool :=
  c == ' ' || c == '\t' || c == '\n' || c == '\r'

/-- The text from its first character on that is no space. -/
def skipSpaces (cs : List Char) : List Char := cs.dropWhile isSpace

/-- What follows a word at the front of a text. -/
def after? : List Char → List Char → Option (List Char)
  | [], cs => some cs
  | _ :: _, [] => none
  | w :: word, c :: cs => if w = c then after? word cs else none

/-- The value of a hexadecimal digit. -/
def hexDigitValue? (c : Char) : Option Nat :=
  if '0' ≤ c ∧ c ≤ '9' then some (c.toNat - '0'.toNat)
  else if 'a' ≤ c ∧ c ≤ 'f' then some (c.toNat - 'a'.toNat + 10)
  else if 'A' ≤ c ∧ c ≤ 'F' then some (c.toNat - 'A'.toNat + 10)
  else none

/-- The number that four hexadecimal digits write. -/
def hexUnit? (a b c d : Char) : Option Nat :=
  [a, b, c, d].foldlM (fun n digit => (hexDigitValue? digit).map (16 * n + ·)) 0

/-- A piece of a string: a character, or a unit of sixteen bits. -/
inductive Piece where
  /-- A character, by itself or after a backslash. -/
  | char (c : Char)
  /-- A unit given by its hexadecimal number. -/
  | unit (n : Nat)
deriving DecidableEq, Repr

/-- The character that a backslash with a letter stands for. -/
def escaped? : Char → Option Char
  | '"' => some '"'
  | '\\' => some '\\'
  | '/' => some '/'
  | 'b' => some '\x08'
  | 'f' => some '\x0c'
  | 'n' => some '\n'
  | 'r' => some '\r'
  | 't' => some '\t'
  | _ => none

/-- The pieces of a string up to its closing quotation mark, and what follows the mark. Control
characters have to be escaped. -/
def readPieces : List Char → Option (List Piece × List Char)
  | [] => none
  | '"' :: rest => some ([], rest)
  | '\\' :: 'u' :: a :: b :: c :: d :: rest => do
    let n ← hexUnit? a b c d
    let (pieces, rest) ← readPieces rest
    return (.unit n :: pieces, rest)
  | '\\' :: letter :: rest => do
    let c ← escaped? letter
    let (pieces, rest) ← readPieces rest
    return (.char c :: pieces, rest)
  | c :: rest => do
    guard (c ≠ '\\' ∧ ' ' ≤ c)
    let (pieces, rest) ← readPieces rest
    return (.char c :: pieces, rest)

/-- The first unit of a surrogate pair. -/
def isLeading (n : Nat) : Bool := 0xd800 ≤ n && n < 0xdc00

/-- The second unit of a surrogate pair. -/
def isTrailing (n : Nat) : Bool := 0xdc00 ≤ n && n < 0xe000

/-- The text that pieces stand for: none if half of a surrogate pair lacks the other. -/
def textOfPieces : List Piece → Option (List Char)
  | [] => some []
  | .char c :: rest => (textOfPieces rest).map (c :: ·)
  | .unit n :: .unit m :: rest =>
    if isLeading n then
      if isTrailing m then
        (textOfPieces rest).map (Char.ofNat (0x10000 + (n - 0xd800) * 0x400 + (m - 0xdc00)) :: ·)
      else none
    else if isTrailing n then none
    else (textOfPieces (.unit m :: rest)).map (Char.ofNat n :: ·)
  | .unit n :: rest =>
    if isLeading n || isTrailing n then none
    else (textOfPieces rest).map (Char.ofNat n :: ·)

/-- The string behind an opening quotation mark. -/
def readString (cs : List Char) : Option (Option String × List Char) :=
  (readPieces cs).map fun (pieces, rest) => ((textOfPieces pieces).map String.ofList, rest)

/-- The digits at the front of a text, of which there has to be one, and what follows them. -/
def readDigits (cs : List Char) : Option (List Char × List Char) :=
  let isDigit := fun c => (Text.digitValue? c).isSome
  if cs.takeWhile isDigit = [] then none else some (cs.takeWhile isDigit, cs.dropWhile isDigit)

/-- The integral part of a number: a zero, or digits that begin with another one. -/
def readWhole : List Char → Option (List Char × List Char)
  | '0' :: rest => some (['0'], rest)
  | cs => readDigits cs

/-- The digits behind a point, if there is a point. -/
def readFraction : List Char → Option (Option (List Char) × List Char)
  | '.' :: rest => (readDigits rest).map fun (digits, rest) => (some digits, rest)
  | cs => some (none, cs)

/-- A sign and the digits of an exponent. -/
def readSigned : List Char → Option (Int × List Char)
  | '-' :: rest => (readDigits rest).map fun (digits, rest) => (-value digits, rest)
  | '+' :: rest => (readDigits rest).map fun (digits, rest) => (value digits, rest)
  | cs => (readDigits cs).map fun (digits, rest) => (value digits, rest)
where
  /-- The number that the digits write. -/
  value (digits : List Char) : Int := (Text.decimalValue? digits).getD 0

/-- The exponent of a number, if it has one. -/
def readExponent : List Char → Option (Option Int × List Char)
  | c :: rest =>
    if c = 'e' ∨ c = 'E' then (readSigned rest).map fun (exponent, rest) => (some exponent, rest)
    else some (none, c :: rest)
  | [] => some (none, [])

/-- A number without a sign, to which a sign was found. -/
def readMagnitude (negative : Bool) (cs : List Char) : Option (Number × List Char) := do
  let (whole, rest) ← readWhole cs
  let (fraction, rest) ← readFraction rest
  let (exponent, rest) ← readExponent rest
  let digits := whole ++ fraction.getD []
  let magnitude ← Text.decimalValue? digits
  if fraction.isNone ∧ exponent.isNone then return (.integer negative magnitude, rest)
  else
    return (.decimal negative magnitude (exponent.getD 0 - (fraction.getD []).length), rest)

/-- A number. -/
def readNumber : List Char → Option (Number × List Char)
  | '-' :: rest => readMagnitude true rest
  | cs => readMagnitude false cs

/-- A value that is neither a string nor built from other values. -/
def readScalar (cs : List Char) : Option (Json × List Char) :=
  match after? "null".toList cs with
  | some rest => some (null, rest)
  | none =>
    match after? "true".toList cs with
    | some rest => some (bool true, rest)
    | none =>
      match after? "false".toList cs with
      | some rest => some (bool false, rest)
      | none => (readNumber cs).map fun (n, rest) => (num n, rest)

mutual

/-- A value with spaces in front of it. -/
def readValue : Nat → List Char → Option (Json × List Char)
  | 0, _ => none
  | fuel + 1, cs =>
    match skipSpaces cs with
    | '"' :: rest => (readString rest).map fun (s, rest) => (str s, rest)
    | '[' :: rest =>
      match skipSpaces rest with
      | ']' :: rest => some (arr [], rest)
      | rest => do
        let (item, rest) ← readValue fuel rest
        let (items, rest) ← readItems fuel rest
        return (arr (item :: items), rest)
    | '{' :: rest =>
      match skipSpaces rest with
      | '}' :: rest => some (obj [], rest)
      | rest => do
        let (member, rest) ← readMember fuel rest
        let (members, rest) ← readMembers fuel rest
        return (obj (member :: members), rest)
    | cs => readScalar cs

/-- The items behind an item of an array, up to the end of the array. -/
def readItems : Nat → List Char → Option (List Json × List Char)
  | 0, _ => none
  | fuel + 1, cs =>
    match skipSpaces cs with
    | ']' :: rest => some ([], rest)
    | ',' :: rest => do
      let (item, rest) ← readValue fuel rest
      let (items, rest) ← readItems fuel rest
      return (item :: items, rest)
    | _ => none

/-- A name and a value, with a colon between them. -/
def readMember : Nat → List Char → Option ((Option String × Json) × List Char)
  | 0, _ => none
  | fuel + 1, cs =>
    match skipSpaces cs with
    | '"' :: rest => do
      let (name, rest) ← readString rest
      match skipSpaces rest with
      | ':' :: rest => do
        let (value, rest) ← readValue fuel rest
        return ((name, value), rest)
      | _ => none
    | _ => none

/-- The members behind a member of an object, up to the end of the object. -/
def readMembers : Nat → List Char → Option (List (Option String × Json) × List Char)
  | 0, _ => none
  | fuel + 1, cs =>
    match skipSpaces cs with
    | '}' :: rest => some ([], rest)
    | ',' :: rest => do
      let (member, rest) ← readMember fuel rest
      let (members, rest) ← readMembers fuel rest
      return (member :: members, rest)
    | _ => none

end

/-- The value that a whole text writes. -/
def ofChars? (cs : List Char) : Option Json :=
  match readValue (cs.length + 1) cs with
  | some (value, rest) => if skipSpaces rest = [] then some value else none
  | none => none

/-- The value that a whole text writes. -/
def parse? (text : String) : Option Json := ofChars? text.toList

end ObjectLayout.Json
