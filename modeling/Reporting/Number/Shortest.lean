import Reporting.Number.Double

/-!
# Shortest decimal writing of a double

The digits written are the fewest that read back as the same double, and of those the nearest to
its value. `digitsOf` finds them in exact arithmetic: the numbers that round to a value of `units`
form an interval, and for one digit, two digits and so on the two neighbours of the value on that
decimal grid are tried. `layout` says how digits become text.
-/

namespace Reporting.Double

/-- The texts that a number format chooses: positional writing is used for decimal exponents from
`least` up to but not including `bound`, and exponents have at least `exponentDigits` digits. -/
structure Layout where
  least : Int
  bound : Int
  exponentDigits : Nat
  nan : String
  infinity : String

/-- Numbers from 0.0001 to below 10^16 are written out with a fraction of at least one digit;
others have an exponent of at least two digits with its sign. -/
def layout : Layout where
  least := -4
  bound := 16
  exponentDigits := 2
  nan := "nan"
  infinity := "inf"

/-- The values that round to `units`, in quarter units: the lower end, the upper end, and whether
the ends themselves belong. A power of two has a nearer neighbour below than above. -/
structure Rounding where
  lower : Nat
  upper : Nat
  closed : Bool

def roundingInterval (units : Nat) : Rounding :=
  if units < Nat.pow 2 53 then ⟨4 * units - 2, 4 * units + 2, units % 2 = 0⟩
  else
    let gap := Nat.pow 2 (Nat.log2 units - 52)
    let mantissa := units / gap
    ⟨4 * units - (if mantissa = Nat.pow 2 52 then gap else 2 * gap), 4 * units + 2 * gap,
      mantissa % 2 = 0⟩

def Rounding.holds (r : Rounding) (num den : Nat) : Bool :=
  if r.closed then r.lower * den ≤ num && num ≤ r.upper * den
  else r.lower * den < num && num < r.upper * den

/-- A positive decimal number `0.d₁d₂… · 10 ^ point`. -/
structure DecimalDigits where
  digits : List Char
  point : Int

/-- `10 ^ e` as a quotient. -/
def powerOfTen (e : Int) : Nat × Nat :=
  match e with
  | .ofNat n => (Nat.pow 10 n, 1)
  | .negSucc n => (1, Nat.pow 10 (n + 1))

/-- The least `e` near the estimate with the value below `10 ^ e`. -/
def decimalPoint (units : Nat) : Int :=
  let estimate := Int.fdiv (((Nat.log2 units : Int) - 1074) * 30103) 100000 - 1
  let below (e : Int) : Bool :=
    let (num, den) := powerOfTen e
    units * den < num * unitsPerOne
  if below estimate then estimate
  else if below (estimate + 1) then estimate + 1
  else if below (estimate + 2) then estimate + 2
  else estimate + 3

/-- The neighbour of the value `units / scale` that lies in an interval, on the grid of `count`
digits up to `10 ^ point`. -/
def neighbour? (units scale : Nat) (interval : Rounding) (point : Int) (count : Nat) :
    Option DecimalDigits :=
  let (num, den) := powerOfTen (point - count)
  -- one grid step is `num / den`
  let steps := units * den / (scale * num)
  let reads (n : Nat) : Bool := interval.holds (4 * n * num * scale) den
  let below := units * den - steps * num * scale
  let above := (steps + 1) * num * scale - units * den
  let upFirst := above < below || (above == below && steps % 2 == 1)
  let write (n : Nat) : DecimalDigits :=
    let digits := Nat.toDigits 10 n
    -- rounding up may carry into one more digit
    ⟨digits, point + ((digits.length : Int) - count)⟩
  let first := if upFirst then steps + 1 else steps
  let second := if upFirst then steps else steps + 1
  if reads first then some (write first)
  else if reads second then some (write second)
  else none

/-- The neighbour of the value, on the grid of `count` digits, that reads back as the value. -/
def onGrid? (units count : Nat) : Option DecimalDigits :=
  neighbour? units unitsPerOne (roundingInterval units) (decimalPoint units) count

/-- Drops the zeros at the end, keeping the first digit. -/
def dropTrailingZeros (digits : List Char) : List Char :=
  match (digits.reverse.dropWhile (· == '0')).reverse with
  | [] => ['0']
  | kept => kept

/-- Zeros at the end of the digits say nothing. -/
def DecimalDigits.trimmed (d : DecimalDigits) : DecimalDigits :=
  { d with digits := dropTrailingZeros d.digits }

/-- What the coarsest of the grids gives that has a number that reads back. -/
def shortest? (units : Nat) : Option DecimalDigits :=
  (List.range 17).findSome? fun n => onGrid? units (n + 1)

/-- The fewest digits that read back as the given positive count of units. -/
def digitsOf (units : Nat) : DecimalDigits :=
  ((shortest? units).map DecimalDigits.trimmed).getD ⟨['0'], 1⟩

def showExponent (width : Nat) (e : Int) : List Char :=
  let digits := Nat.toDigits 10 e.natAbs
  (if e < 0 then '-' else '+') :: (List.replicate (width - digits.length) '0' ++ digits)

/-- Lays digits out as text. -/
def Layout.show (l : Layout) (d : DecimalDigits) : List Char :=
  let exponent := d.point - 1
  if l.least ≤ exponent ∧ exponent < l.bound then
    match d.point with
    | .ofNat whole =>
      let padded := d.digits ++ List.replicate (whole - d.digits.length) '0'
      let front := padded.take whole
      let back := padded.drop whole
      (if front.isEmpty then ['0'] else front) ++ '.' :: (if back.isEmpty then ['0'] else back)
    | .negSucc n => '0' :: '.' :: (List.replicate (n + 1) '0' ++ d.digits)
  else
    let tail := d.digits.drop 1
    d.digits.take 1 ++ (if tail.isEmpty then [] else '.' :: tail) ++
      'e' :: showExponent l.exponentDigits exponent

def text (x : Double) : String :=
  let sign (negative : Bool) : List Char := if negative then ['-'] else []
  match x.unpack with
  | .nan => layout.nan
  | .infinite negative => String.ofList (sign negative) ++ layout.infinity
  | .finite negative 0 => String.ofList (sign negative ++ ['0', '.', '0'])
  | .finite negative units => String.ofList (sign negative ++ layout.show (digitsOf units))

end Reporting.Double
