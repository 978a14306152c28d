import Reporting.Number.Word
import Reporting.Shape.Lenient.Number

/-!
# Columns of integers

A column of integers holds words. Other values are kept as well, but what stands for a word becomes
that word: a truth value, a double without a fraction, and a text that is written as a number.
-/

namespace Reporting.IntegerColumn

/-- The white space that may stand around a written number. -/
def isSpace (c : Char) : Bool := c == ' ' || (9 ≤ c.toNat && c.toNat ≤ 13)

def trimmed (text : List Char) : List Char :=
  ((text.dropWhile isSpace).reverse.dropWhile isSpace).reverse

/-- What is kept of a double: a word where it stands for one, and nothing of what is no number. -/
def keepDouble (x : Double) : Value :=
  if x.isNaN then .null
  else
    match Lenient.wordOfDouble? x with
    | some n => .int n
    | none => .float x

/-- What is kept of a text: a number where it is written as one. -/
def keepText (text : String) : Value :=
  let (negative, rest) := Text.splitSign (trimmed text.toList)
  let n := Text.signed negative (Text.digitsValue rest)
  if !rest.isEmpty && rest.all Text.isAsciiDigit && isWord n then .int n
  else
    match Lenient.readFloatBody? negative rest with
    | some x => keepDouble x
    | none => .text text

/-- An integer that is no word, so that no column holds it. -/
structure Overflow where
  value : Int
  deriving DecidableEq

/-- What is kept of a value. -/
def keep : Value → Except Overflow Value
  | .scalar (.int n) => if isWord n then .ok (.int n) else .error ⟨n⟩
  | .scalar (.bool b) => .ok (.int (if b then 1 else 0))
  | .scalar (.float x) => .ok (keepDouble x)
  | .scalar (.text text) => .ok (keepText text)
  | value => .ok value

end Reporting.IntegerColumn
