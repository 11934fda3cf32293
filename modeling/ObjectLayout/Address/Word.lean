/-!
# Machine words

Sizes, offsets and counts are natural numbers below `2 ^ 64`. The checked operations answer `none`
exactly when the natural-number result is not below that bound. Where nothing is checked the result
wraps around (`Word.wrap`), as it does in a program that is built without assertions on overflow.
-/

set_option autoImplicit false

namespace ObjectLayout

/-- The number of addresses. Every size and every offset lies below it. -/
def addressSpace : Nat := Nat.pow 2 64

namespace Word

/-- The number itself, if it lies below `addressSpace`. -/
def fit? (n : Nat) : Option Nat :=
  if n < addressSpace then some n else none

/-- The sum, if it lies below `addressSpace`. -/
def add? (a b : Nat) : Option Nat :=
  fit? (a + b)

/-- The product, if it lies below `addressSpace`. -/
def mul? (a b : Nat) : Option Nat :=
  fit? (a * b)

/-- What is left in a word of a result that nothing checks: its low bits. -/
def wrap (n : Nat) : Nat := n % addressSpace

/-- A number that is a word is not changed by wrapping. -/
theorem wrap_of_lt {n : Nat} (h : n < addressSpace) : wrap n = n := Nat.mod_eq_of_lt h

/-- What is left by wrapping is a word. -/
theorem wrap_lt (n : Nat) : wrap n < addressSpace := Nat.mod_lt n (by decide)

/-- A number fits exactly when it is a word, and it is then the number itself. -/
theorem fit?_eq_some_iff {n m : Nat} : fit? n = some m ↔ n < addressSpace ∧ n = m := by
  simp [fit?]

/-- A number does not fit exactly when it is no word. -/
theorem fit?_eq_none_iff {n : Nat} : fit? n = none ↔ addressSpace ≤ n := by
  simp [fit?]

end Word

end ObjectLayout
