/-!
# Sizes of integers

A word is an integer that 64 bits hold with its sign. A short integer has few enough digits to be
written as a text or to be read from one; the limit is the same both ways and does not count the
sign.
-/

namespace Reporting

def isWord (n : Int) : Bool := decide (Int64.minValue.toInt ≤ n ∧ n ≤ Int64.maxValue.toInt)

/-- The most digits of an integer that is written as a text or read from one. -/
def digitLimit : Nat := 4300

def isShortInteger (n : Int) : Bool := decide (n.natAbs < Nat.pow 10 digitLimit)

/-- What is said of an integer that is too long to be written. -/
def longIntegerMessage : String :=
  "Exceeds the limit (" ++ toString digitLimit ++
    " digits) for integer string conversion; use sys.set_int_max_str_digits() to increase the limit"

end Reporting
