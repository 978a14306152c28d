import Reporting.Number.Double

/-!
# Clock readings

A `Reading` is an exact integer or a double. Integers stay exact among themselves; a sum or a
difference with a double is a double, rounded once, and there is none where the integer is too large
for a double (`mixes`). Readings are compared by their exact values, and nothing is less than or
greater than a reading that is not a number.
-/

namespace Reporting

/-- A point in time or a span of time. -/
inductive Reading where
  | int (n : Int)
  | double (x : Double)
  deriving DecidableEq

namespace Reading

def toDouble : Reading → Double
  | .int n => Double.ofInt n
  | .double x => x

/-- Can the reading be turned into a finite double, if it is not a double already? -/
def fitsDouble : Reading → Bool
  | .int n => (Double.ofInt? n).isSome
  | .double _ => true

/-- Do two readings have a sum and a difference? -/
def mixes : Reading → Reading → Bool
  | .int _, .int _ => true
  | a, b => a.fitsDouble && b.fitsDouble

/-- The exact value in units of 2^-1074, where there is one. -/
def datum : Reading → Double.Datum
  | .int n => .finite (decide (n < 0)) (n.natAbs * Double.unitsPerOne)
  | .double x => x.unpack

def isBelow (a b : Double.Datum) : Bool :=
  match a, b with
  | .nan, _ | _, .nan => false
  | .infinite a, .infinite b => a && !b
  | .infinite a, .finite _ _ => a
  | .finite _ _, .infinite b => !b
  | .finite a m, .finite b n => decide (Double.signedUnits a m < Double.signedUnits b n)

instance : LT Reading where
  lt a b := isBelow a.datum b.datum = true

instance : DecidableLT Reading := fun a b =>
  inferInstanceAs (Decidable (isBelow a.datum b.datum = true))

instance : Add Reading where
  add
    | .int m, .int n => .int (m + n)
    | a, b => .double (a.toDouble.add b.toDouble)

instance : Sub Reading where
  sub
    | .int m, .int n => .int (m - n)
    | a, b => .double (a.toDouble.sub b.toDouble)

def isPositive (a : Reading) : Bool := decide (Reading.int 0 < a)

def isZeroOrLess (a : Reading) : Bool :=
  match a.datum with
  | .nan => false
  | .infinite negative => negative
  | .finite negative units => negative || units == 0

/-- The greatest natural number that is not above a reading. A reading that no number exceeds, or
that is not a number, stands above all finite doubles. -/
def wholePart (a : Reading) : Nat :=
  match a.datum with
  | .finite negative units => if negative then 0 else units / Double.unitsPerOne
  | .infinite true => 0
  | .infinite false | .nan => Nat.pow 2 1024

end Reading

end Reporting
