/-!
# Hexadecimal digits

Escapes in quoted literals and in JSON strings name a character by the hexadecimal digits of its
code point. This file writes a number with a fixed count of digits and reads a single digit back.
-/

namespace StateSpace.Text

/-- The last `width` hexadecimal digits of a number, in lower case. -/
def hex : Nat → Nat → List Char
  | 0, _ => []
  | width + 1, number => hex width (number / 16) ++ [Nat.digitChar (number % 16)]

/-- The value of a hexadecimal digit in either case. -/
def hexDigit? (digit : Char) : Option Nat :=
  if '0' ≤ digit ∧ digit ≤ '9' then
    some (digit.toNat - '0'.toNat)
  else if 'a' ≤ digit ∧ digit ≤ 'f' then
    some (digit.toNat - 'a'.toNat + 10)
  else if 'A' ≤ digit ∧ digit ≤ 'F' then
    some (digit.toNat - 'A'.toNat + 10)
  else
    none

@[simp]
theorem length_hex (width number : Nat) : (hex width number).length = width := by
  induction width generalizing number with
  | zero => rfl
  | succ width ih => simp [hex, ih]

end StateSpace.Text
