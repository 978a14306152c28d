import Reporting.Text.Blank

/-!
# Decimal digits and integer literals

`digitValue?` reads a decimal digit of any script of Unicode 14. `readInteger?` reads an integer
as people type it: white space around it, an optional sign, leading zeros, and single underscores
between digits.
-/

namespace Reporting.Text

/-- The code points of the zeros; each is followed by the other nine digits of its script. -/
def digitZeros : List Nat := [
  48, 1632, 1776, 1984, 2406, 2534, 2662, 2790, 2918, 3046, 3174, 3302, 3430, 3558, 3664, 3792,
  3872, 4160, 4240, 6112, 6160, 6470, 6608, 6784, 6800, 6992, 7088, 7232, 7248, 42528, 43216,
  43264, 43472, 43504, 43600, 44016, 65296, 66720, 68912, 69734, 69872, 69942, 70096, 70384,
  70736, 70864, 71248, 71360, 71472, 71904, 72016, 72784, 73040, 73120, 92768, 92864, 93008,
  120782, 120792, 120802, 120812, 120822, 123200, 123632, 125264, 130032]

/-- The value of a decimal digit. -/
def digitValue? (c : Char) : Option Nat :=
  (digitZeros.find? fun first => first ≤ c.toNat && c.toNat < first + 10).map (c.toNat - ·)

def isAsciiDigit (c : Char) : Bool := 48 ≤ c.toNat && c.toNat ≤ 57

/-- The value of a run of ASCII digits, read from the left. -/
def digitsValue (digits : List Char) : Nat :=
  digits.foldl (fun value c => 10 * value + (c.toNat - 48)) 0

/-- Splits off a sign; true stands for a minus. -/
def splitSign : List Char → Bool × List Char
  | '+' :: rest => (false, rest)
  | '-' :: rest => (true, rest)
  | rest => (false, rest)

/-- Digits with single underscores between them, as values; `afterDigit` says whether an
underscore may come next. -/
def readDigits? (afterDigit : Bool) : List Char → Option (List Nat)
  | [] => if afterDigit then some [] else none
  | '_' :: rest => if afterDigit then readDigits? false rest else none
  | c :: rest => do
    let digit ← digitValue? c
    return digit :: (← readDigits? true rest)

def signed (negative : Bool) (n : Nat) : Int := if negative then -(n : Int) else n

/-- An integer with white space around it, an optional sign and single underscores between digits;
more than `limit` digits are refused. -/
def readInteger? (limit : Nat) (text : String) : Option Int := do
  let (negative, rest) := splitSign (trimSpace text.toList)
  let digits ← readDigits? false rest
  if limit < digits.length then none
  else return signed negative (digits.foldl (fun value digit => 10 * value + digit) 0)

end Reporting.Text
