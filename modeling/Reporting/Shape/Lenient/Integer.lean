import Reporting.Json.Reader
import Reporting.Number.Word
import Reporting.Shape

/-!
# Integers in many forms

`Lenient.integer` reads an integer out of an integer, a truth value, a double without a fraction, or
a text. An integer text may have space around it, a sign, leading zeros, underscores between its
digits, and a fraction of zeros; `plainForm?` removes all of them.
-/

namespace Reporting.Lenient

open Text

def integerLimit : Nat := 4300

/-- A minus sign, if there is one, and what follows it. -/
def splitMinus : List Char → Bool × List Char
  | '-' :: rest => (true, rest)
  | rest => (false, rest)

/-- Does the text start with more of an integer than can be read? The sign counts. -/
def startsOversized (text : List Char) : Bool :=
  let (negative, rest) := splitMinus text
  match Json.readWhole? rest with
  | some (digits, _) => integerLimit < negative.toNat + digits.length
  | none => false

/-- An integer without leading zeros and with at most a minus sign. -/
def readPlainInteger? (text : List Char) : Option Int :=
  let (negative, rest) := splitMinus text
  match Json.readWhole? rest with
  | some (digits, []) => some (signed negative (digitsValue digits))
  | _ => none

/-- Drops zeros and underscores up to the first other digit or a minus sign, keeping a zero before a
point and the last character of a text that has nothing else. -/
def dropLeadingZeros? (text : List Char) : Option (List Char) :=
  match text with
  | '0' :: rest =>
    let lead := rest.takeWhile fun c => c == '0' || c == '_'
    match rest.dropWhile fun c => c == '0' || c == '_' with
    | [] => some [lead.getLast?.getD '0']
    | '.' :: tail => some (lead.getLast?.getD '0' :: '.' :: tail)
    | c :: tail => if isAsciiDigit c || c == '-' then some (c :: tail) else none
  | c :: _ => if isAsciiDigit c then some text else none
  | [] => none

def hasDoubleUnderscore : List Char → Bool
  | '_' :: '_' :: _ => true
  | _ :: rest => hasDoubleUnderscore rest
  | [] => false

/-- Removes underscores that stand singly inside the text. -/
def dropUnderscores? (text : List Char) : Option (List Char) :=
  if text.contains '_' && text.head? != some '_' && text.getLast? != some '_' &&
      !hasDoubleUnderscore text then some (text.filter (· != '_'))
  else none

/-- Removes a fraction of zeros, at least one of them. -/
def dropZeroFraction (text : List Char) : List Char :=
  match text.dropWhile (· != '.') with
  | '.' :: '0' :: fraction =>
    if fraction.all (· == '0') then text.takeWhile (· != '.') else text
  | _ => text

/-- The plain form of an integer text: no space around it, no plus sign, no leading zeros, no
fraction of zeros and no underscores. -/
def plainForm? (text : List Char) : Option (List Char) := do
  let digits ← match trimSpace text with
    | '+' :: '-' :: _ => none
    | '+' :: rest => dropLeadingZeros? rest
    | '-' :: rest => (dropLeadingZeros? rest).map ('-' :: ·)
    | rest => dropLeadingZeros? rest
  let whole := dropZeroFraction digits
  return (dropUnderscores? whole).getD whole

/-- Reads an integer text in any of its forms. -/
def readAnyForm? (text : List Char) : Option Int :=
  (readPlainInteger? text).orElse fun _ => do
    let plain ← plainForm? text
    if startsOversized plain then none else readPlainInteger? plain

def integerText (text : String) : Checked Int :=
  if startsOversized text.toList then .problem .oversizedInteger
  else
    match readAnyForm? text.toList with
    | some n => .valid n
    | none => .problem .unreadableInteger

/-- The integer that a double without a fraction stands for, strictly between -2^63 and 2^63. -/
def wordOfDouble? (x : Double) : Option Int :=
  x.toInt?.filter fun n => isWord n && n != Int64.minValue.toInt

/-- A double without a fraction, as long as it is not too large. -/
def integerDouble (x : Double) : Checked Int :=
  match wordOfDouble? x with
  | some n => .valid n
  | none =>
    .problem (if x.toInt?.isSome then .oversizedInteger
      else if x.isFinite then .fractionalInteger else .infiniteInteger)

/-- An integer, a truth value as zero or one, a double without a fraction, or an integer text. -/
def integer : Value → Checked Int
  | .scalar (.int n) => .valid n
  | .scalar (.bool b) => .valid (if b then 1 else 0)
  | .scalar (.float x) => integerDouble x
  | .scalar (.text s) => integerText s
  | _ => .problem .notInteger

end Reporting.Lenient
