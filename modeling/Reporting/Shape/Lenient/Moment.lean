import Reporting.Moment.Calendar
import Reporting.Number.Word
import Reporting.Shape

/-!
# Moments in many forms

`Lenient.moment` reads a moment out of a moment, a text, or a timestamp.
-/

namespace Reporting.Lenient

open Text

/-- A moment of a year other than zero. -/
def momentAfterZero (m : Moment) : Checked Moment :=
  if m.date.year = 0 then .problem .yearZero else .valid m.atMidnight

/-- A timestamp of so many units, as whole seconds and microseconds. The whole part is rounded down,
and the fraction without its sign is added to it, rounded to microseconds. -/
def splitTimestamp (negative : Bool) (units : Nat) : Int × Nat :=
  let fraction := units % Double.unitsPerOne
  (Int.fdiv (Double.signedUnits negative units) Double.unitsPerOne,
    Double.roundUnits (Double.ofUnits false (fraction * 1000000) 1))

/-- The timestamp that a text writes, in seconds and microseconds: digits with an optional sign, and
a point after one of them. -/
def timestampText? (text : List Char) : Option (Int × Nat) :=
  let (negative, rest) := splitSign text
  let whole := rest.takeWhile isAsciiDigit
  let n := signed negative (digitsValue whole)
  if whole.isEmpty || !isWord n then none
  else
    match rest.dropWhile isAsciiDigit with
    | [] => some (n, 0)
    | '.' :: fraction =>
      if fraction.all isAsciiDigit then
        let digits := digitsValue (whole ++ fraction)
        match (Double.ofDecimal negative digits (-fraction.length)).unpack with
        | .finite negative units => some (splitTimestamp negative units)
        | _ => none
      else none
    | _ => none

/-- A text that reads as a moment, or writes a timestamp. A timestamp out of range is told from
other texts only where it has no point. -/
def momentText (text : String) : Checked Moment :=
  match Moment.read text with
  | .ok m => momentAfterZero m
  | .error fault =>
    match timestampText? text.toList with
    | none => .problem (.unreadableMoment fault)
    | some (timestamp, microseconds) =>
      match Moment.ofTimestamp timestamp microseconds with
      | .ok m => momentAfterZero m
      | .error reason =>
        .problem (if text.contains '.' then .unreadableMoment fault else .impossibleDate reason)

def momentNumber (timestamp : Int) (microseconds : Nat) : Checked Moment :=
  match Moment.ofTimestamp timestamp microseconds with
  | .ok m => momentAfterZero m
  | .error fault => .problem (.impossibleMoment fault)

def momentDouble (x : Double) : Checked Moment :=
  match x.unpack with
  | .nan => .problem .noNumberMoment
  | .infinite negative => .problem (.impossibleMoment (if negative then .tooEarly else .tooLate))
  | .finite negative units =>
    let (timestamp, microseconds) := splitTimestamp negative units
    momentNumber timestamp microseconds

/-- A moment, a text that reads as one, or a timestamp; a date alone stands for its midnight. There
is no year zero. -/
def moment : Value → Checked Moment
  | .scalar (.moment m) => .valid m.atMidnight
  | .scalar (.text s) => momentText s
  | .scalar (.int n) =>
    if isWord n then momentNumber n 0
    else
      match Double.ofInt? n with
      | some x => momentDouble x
      | none => .problem .notMoment
  | .scalar (.float x) => momentDouble x
  | _ => .problem .notMoment

end Reporting.Lenient
