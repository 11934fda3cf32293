/-!
# Blank characters

The characters with the `White_Space` property of Unicode, and the removal of blanks at both ends of
a text. Texts are lists of characters here, since that is the form in which they are taken apart.
-/

set_option autoImplicit false

namespace ObjectLayout.Text

/-- The characters with the `White_Space` property, as ranges of code points, ends included. -/
def blankRanges : List (Nat × Nat) :=
  [(0x09, 0x0d), (0x20, 0x20), (0x85, 0x85), (0xa0, 0xa0), (0x1680, 0x1680), (0x2000, 0x200a),
   (0x2028, 0x2029), (0x202f, 0x202f), (0x205f, 0x205f), (0x3000, 0x3000)]

/-- Whether the character has the `White_Space` property. -/
def isBlank (c : Char) : Bool :=
  blankRanges.any fun (first, last) => first ≤ c.toNat && c.toNat ≤ last

/-- The text without the blanks it begins and ends with. -/
def trim (cs : List Char) : List Char :=
  ((cs.dropWhile isBlank).reverse.dropWhile isBlank).reverse

/-- Trimming makes no text longer. -/
theorem length_trim_le (cs : List Char) : (trim cs).length ≤ cs.length := by
  simp only [trim, List.length_reverse]
  calc ((cs.dropWhile isBlank).reverse.dropWhile isBlank).length
      ≤ (cs.dropWhile isBlank).reverse.length := (List.dropWhile_sublist _).length_le
    _ ≤ cs.length := by
      rw [List.length_reverse]
      exact (List.dropWhile_sublist _).length_le

end ObjectLayout.Text
