/-!
# Double-precision numbers

A `Double` is its 64 bits. Every finite one is a whole number of units of 2^-1074, the smallest
positive double, so `unpack` gives a sign and a natural number of units and `ofUnits` rounds an
exact quotient of units to the nearest double, a tie going to the even neighbour. Sums, differences
and comparisons are exact integer arithmetic on units followed by one rounding.
-/

namespace Reporting

/-- A double-precision number, given by its bits. -/
structure Double where
  bits : UInt64
  deriving DecidableEq

namespace Double

/-- What the bits stand for; a finite value counts units of 2^-1074. -/
inductive Datum where
  | nan
  | infinite (negative : Bool)
  | finite (negative : Bool) (units : Nat)

/-- The bits of a sign and of a magnitude below 2^63. -/
def pack (negative : Bool) (magnitude : Nat) : Double :=
  ⟨UInt64.ofNat ((if negative then Nat.pow 2 63 else 0) + magnitude)⟩

def infinityBits : Nat := 2047 * Nat.pow 2 52

def nan : Double := pack false (infinityBits + Nat.pow 2 51)

def infinity (negative : Bool) : Double := pack negative infinityBits

/-- Reads the bits: an exponent of zero marks the numbers below 2^-1022, whose units are the
fraction itself. -/
def unpack (x : Double) : Datum :=
  let bits := x.bits.toNat
  let negative := decide (Nat.pow 2 63 ≤ bits)
  let magnitude := bits % Nat.pow 2 63
  let exponent := magnitude / Nat.pow 2 52
  let fraction := magnitude % Nat.pow 2 52
  if exponent = 2047 then if fraction = 0 then .infinite negative else .nan
  else if exponent = 0 then .finite negative fraction
  else .finite negative ((Nat.pow 2 52 + fraction) * Nat.pow 2 (exponent - 1))

/-- A quotient rounded to the nearest natural number, a tie to the even neighbour. -/
def roundHalfEven (num den : Nat) : Nat :=
  let quotient := num / den
  let twice := 2 * (num % den)
  if twice < den then quotient
  else if den < twice then quotient + 1
  else if quotient % 2 = 0 then quotient else quotient + 1

/-- The double nearest to `num / den` units. Below 2^53 units the magnitude bits are the units
themselves; above, the quotient is scaled to 53 bits and the scale is added to the exponent. -/
def ofUnits (negative : Bool) (num den : Nat) : Double :=
  let whole := num / den
  let magnitude :=
    if whole < Nat.pow 2 53 then roundHalfEven num den
    else
      let shift := Nat.log2 whole - 52
      shift * Nat.pow 2 52 + roundHalfEven num (den * Nat.pow 2 shift)
  pack negative (min magnitude infinityBits)

def unitsPerOne : Nat := Nat.pow 2 1074

/-- The double nearest to `digits · 10 ^ exponent`. Exponents far outside the range are settled
without computing the power. -/
def ofDecimal (negative : Bool) (digits : Nat) (exponent : Int) : Double :=
  let places : Int := (Nat.toDigits 10 digits).length
  if digits = 0 then pack negative 0
  else if 400 < places + exponent then infinity negative
  else if places + exponent < -400 then pack negative 0
  else match exponent with
    | .ofNat e => ofUnits negative (digits * Nat.pow 10 e * unitsPerOne) 1
    | .negSucc e => ofUnits negative (digits * unitsPerOne) (Nat.pow 10 (e + 1))

/-- The double nearest to an integer; infinite where the integer is too large. -/
def ofInt (n : Int) : Double := ofUnits (decide (n < 0)) (n.natAbs * unitsPerOne) 1

/-- The natural number nearest to a value that is not negative, a half going up; zero for all
others. -/
def roundUnits (x : Double) : Nat :=
  match x.unpack with
  | .finite false units => (2 * units + unitsPerOne) / (2 * unitsPerOne)
  | _ => 0

def isNaN (x : Double) : Bool :=
  match x.unpack with
  | .nan => true
  | _ => false

def isFinite (x : Double) : Bool :=
  match x.unpack with
  | .finite _ _ => true
  | _ => false

/-- The double nearest to an integer, as long as that is finite. -/
def ofInt? (n : Int) : Option Double := if (ofInt n).isFinite then some (ofInt n) else none

def signedUnits (negative : Bool) (units : Nat) : Int := if negative then -(units : Int) else units

/-- The sum, rounded once. A sum of zero is negative only when both parts are. -/
def add (x y : Double) : Double :=
  match x.unpack, y.unpack with
  | .nan, _ | _, .nan => nan
  | .infinite a, .infinite b => if a = b then infinity a else nan
  | .infinite a, .finite _ _ => infinity a
  | .finite _ _, .infinite b => infinity b
  | .finite a m, .finite b n =>
    let sum := signedUnits a m + signedUnits b n
    if sum = 0 then pack (a && b) 0 else ofUnits (decide (sum < 0)) sum.natAbs 1

def neg (x : Double) : Double := ⟨x.bits ^^^ 0x8000000000000000⟩

def sub (x y : Double) : Double := x.add y.neg

/-- The integer equal to a double without a fractional part. -/
def toInt? (x : Double) : Option Int :=
  match x.unpack with
  | .finite negative units =>
    if units % unitsPerOne = 0 then some (signedUnits negative (units / unitsPerOne)) else none
  | _ => none

end Double

end Reporting
