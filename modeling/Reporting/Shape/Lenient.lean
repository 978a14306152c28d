import Reporting.Shape.Lenient.Integer
import Reporting.Shape.Lenient.Moment
import Reporting.Shape.Lenient.Number

/-!
# Lenient readers

Integers, numbers, truth values and moments that come from a form, a row or the environment may be
written as texts or as neighbouring kinds of value. `Lenient.integer`, `Lenient.number`,
`Lenient.truth` and `Lenient.moment` accept those and refuse the rest with a problem that tells
them apart.
-/

namespace Reporting.Lenient

/-- The truth value of zero and one. -/
def truthOfInt (n : Int) : Checked Bool :=
  if n = 0 then .valid false else if n = 1 then .valid true else .problem .unreadableTruth

/-- The words for truth values, in any case. -/
def truthText (text : String) : Checked Bool :=
  match String.ofList (text.toList.map Char.toLower) with
  | "1" | "t" | "true" | "y" | "yes" | "on" => .valid true
  | "0" | "f" | "false" | "n" | "no" | "off" => .valid false
  | _ => .problem .unreadableTruth

/-- A truth value, zero or one, or a word for a truth value. -/
def truth : Value → Checked Bool
  | .scalar (.bool b) => .valid b
  | .scalar (.int n) => if isWord n then truthOfInt n else .problem .notTruth
  | .scalar (.float x) =>
    match wordOfDouble? x with
    | some n => truthOfInt n
    | none => .problem .notTruth
  | .scalar (.text s) => truthText s
  | _ => .problem .notTruth

end Reporting.Lenient
