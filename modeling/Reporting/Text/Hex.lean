/-!
# Hexadecimal digits

Lower-case hexadecimal writing at a fixed width, and the value of a digit in either case.
-/

namespace Reporting.Text

/-- The lower-case hexadecimal digit of the last four bits. -/
def hexDigit (n : Nat) : Char :=
  let digit := n % 16
  Char.ofNat (if digit < 10 then 48 + digit else 87 + digit)

/-- The last `width` hexadecimal digits of a number, most significant first. -/
def hexPadded : (width : Nat) → (n : Nat) → List Char
  | 0, _ => []
  | width + 1, n => hexPadded width (n / 16) ++ [hexDigit n]

/-- The value of a hexadecimal digit, upper or lower case. -/
def hexValue? (c : Char) : Option Nat :=
  let n := c.toNat
  if 48 ≤ n ∧ n ≤ 57 then some (n - 48)
  else if 97 ≤ n ∧ n ≤ 102 then some (n - 87)
  else if 65 ≤ n ∧ n ≤ 70 then some (n - 55)
  else none

/-- A digit that was written is read back. -/
theorem hexValue?_hexDigit (n : Nat) : hexValue? (hexDigit n) = some (n % 16) := by
  have every : ∀ digit < 16, hexValue? (hexDigit digit) = some digit := by decide
  simpa [hexDigit] using every (n % 16) (Nat.mod_lt _ (by decide))

end Reporting.Text
