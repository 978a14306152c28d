import Reporting.Text.Digit

/-!
# Decimal numbers

A `Decimal` keeps the digits and the exponent it was written with, so `1.50` stays apart from
`1.5`. `Decimal.read` reads the usual notation, in the digits of any script and with underscores
anywhere, and `Decimal.text` writes it: digits around a point while the number is not too small and
the exponent not positive, and an exponent otherwise.
-/

namespace Reporting

/-- A decimal number as written: `coefficient · 10 ^ exponent` with a sign, or a special value. -/
inductive Decimal where
  | finite (negative : Bool) (coefficient : Nat) (exponent : Int)
  | infinite (negative : Bool)
  | nan (negative signaling : Bool) (payload : Nat)
  deriving DecidableEq

/-- Why a text is no decimal number: it is not written as one, or too large or too small. -/
inductive DecimalFault where
  | malformed
  | outOfRange
  deriving DecidableEq

namespace Decimal

open Text

def readExponent? : List Char → Option Int
  | [] => some 0
  | c :: rest =>
    if c == 'e' || c == 'E' then
      let (negative, digits) := splitSign rest
      if !digits.isEmpty && digits.all isAsciiDigit then some (signed negative (digitsValue digits))
      else none
    else none

def readFinite? (negative : Bool) (text : List Char) : Option Decimal := do
  let whole := text.takeWhile isAsciiDigit
  let rest := text.dropWhile isAsciiDigit
  let (fraction, rest) := match rest with
    | '.' :: rest => (rest.takeWhile isAsciiDigit, rest.dropWhile isAsciiDigit)
    | _ => ([], rest)
  if whole.isEmpty && fraction.isEmpty then none
  else
    let exponent ← readExponent? rest
    return .finite negative (digitsValue (whole ++ fraction)) (exponent - fraction.length)

/-- The same text without underscores and with ASCII digits for those of other scripts. -/
def asciiForm? (text : List Char) : Option (List Char) :=
  (text.filter (· != '_')).mapM fun c =>
    if c.toNat < 128 then some c else (digitValue? c).map Nat.digitChar

/-- Reads a value that is not a number: its name and the digits that it carries. -/
def readNaN? (negative : Bool) (text : List Char) : Option Decimal :=
  let (signaling, rest) := match text with
    | 's' :: rest => (true, rest)
    | rest => (false, rest)
  match rest with
  | 'n' :: 'a' :: 'n' :: payload =>
    if payload.all isAsciiDigit then some (.nan negative signaling (digitsValue payload)) else none
  | _ => none

def readAny? (text : List Char) : Option Decimal := do
  let (negative, rest) := splitSign (← asciiForm? text)
  let name := rest.map Char.toLower
  if name = "inf".toList ∨ name = "infinity".toList then some (.infinite negative)
  else (readNaN? negative name).orElse fun _ => readFinite? negative rest

/-- The greatest exponent of a first digit. -/
def greatestExponent : Int := 999999999999999999

/-- The least exponent of a last digit. -/
def leastExponent : Int := -1999999999999999997

def inRange : Decimal → Bool
  | .finite _ coefficient exponent =>
    decide (leastExponent ≤ exponent ∧
      exponent + (Nat.toDigits 10 coefficient).length - 1 ≤ greatestExponent)
  | .infinite _ | .nan _ _ _ => true

/-- Reads a decimal number; blanks around it are ignored. -/
def read (text : String) : Except DecimalFault Decimal :=
  match readAny? (trim text.toList) with
  | none => .error .malformed
  | some d => if d.inRange then .ok d else .error .outOfRange

def sign (negative : Bool) : String := if negative then "-" else ""

def showExponent (e : Int) : String := (if e < 0 then "E" else "E+") ++ toString e

def text : Decimal → String
  | .infinite negative => sign negative ++ "Infinity"
  | .nan negative signaling payload =>
    sign negative ++ (if signaling then "sNaN" else "NaN") ++
      (if payload = 0 then "" else toString payload)
  | .finite negative coefficient exponent =>
    let digits := Nat.toDigits 10 coefficient
    let left : Int := exponent + digits.length
    let point : Int := if exponent ≤ 0 ∧ -6 < left then left else 1
    let body : List Char :=
      if point ≤ 0 then '0' :: '.' :: (List.replicate point.natAbs '0' ++ digits)
      else if digits.length ≤ point.toNat then
        digits ++ List.replicate (point.toNat - digits.length) '0'
      else digits.take point.toNat ++ '.' :: digits.drop point.toNat
    sign negative ++ String.ofList body ++
      (if left = point then "" else showExponent (left - point))

end Decimal

end Reporting
