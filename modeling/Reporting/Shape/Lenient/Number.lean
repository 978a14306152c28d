import Reporting.Shape.Lenient.Integer

/-!
# Numbers in many forms

`Lenient.number` reads a double out of a number of any kind, a truth value, or a text.
-/

namespace Reporting.Lenient

open Text

/-- Digits with at most one point among them, and an exponent. -/
def readFloatBody? (negative : Bool) (text : List Char) : Option Double := do
  let whole := text.takeWhile isAsciiDigit
  let rest := text.dropWhile isAsciiDigit
  let (fraction, rest) := match rest with
    | '.' :: rest => (rest.takeWhile isAsciiDigit, rest.dropWhile isAsciiDigit)
    | rest => ([], rest)
  if whole.isEmpty && fraction.isEmpty then none
  else
    let exponent ← Decimal.readExponent? rest
    return Double.ofDecimal negative (digitsValue (whole ++ fraction)) (exponent - fraction.length)

/-- A double written with an optional sign, a point, an exponent, or as a word. -/
def readFloat? (text : List Char) : Option Double :=
  let (negative, rest) := splitSign text
  match String.ofList (rest.map Char.toLower) with
  | "inf" | "infinity" => some (Double.infinity negative)
  | "nan" => some Double.nan
  | _ => readFloatBody? negative rest

/-- A number written as a text, with space around it or with underscores inside it. -/
def numberText (text : String) : Checked Double :=
  let chars := text.toList
  match (readFloat? (trimSpace chars)).orElse fun _ =>
      (dropUnderscores? chars).bind readFloat? with
  | some x => .valid x
  | none => .problem .unreadableNumber

/-- The double nearest to an integer that is not too large. -/
def numberInteger (n : Int) : Checked Double :=
  match Double.ofInt? n with
  | some x => .valid x
  | none => .problem .notNumber

/-- A number of any kind, a truth value as zero or one, or a number text. -/
def number : Value → Checked Double
  | .scalar (.float x) => .valid x
  | .scalar (.int n) => numberInteger n
  | .scalar (.bool b) => .valid (Double.ofInt (if b then 1 else 0))
  | .scalar (.text s) => numberText s
  | _ => .problem .notNumber

end Reporting.Lenient
