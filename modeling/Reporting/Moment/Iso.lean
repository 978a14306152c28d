import Reporting.Moment.Calendar
import Reporting.Text.Quoted

/-!
# ISO 8601 texts

`Moment.ofIso` reads the forms of ISO 8601: a date by month and day or by week and weekday, with
hyphens or without, alone or followed by any one character and a time of day. The parts of a time
have colons between them or nothing, the last of them may have a fraction, and an offset may follow.
Whether the text has such a form is decided before any number is held against its range.
-/

namespace Reporting

inductive IsoFault where
  | malformed (text : String)
  | offsetRange (microseconds : Int)
  | yearRange (year : Nat)
  | monthRange
  | dayRange
  | hourRange
  | minuteRange
  | secondRange
  deriving DecidableEq

namespace IsoFault

/-- A span of time in days, seconds and microseconds, those that are zero left out. -/
def spanText (microseconds : Int) : String :=
  let seconds := Int.fdiv microseconds 1000000
  let parts := [("days", Int.fdiv seconds 86400), ("seconds", Int.fmod seconds 86400),
    ("microseconds", Int.fmod microseconds 1000000)]
  let shown := (parts.filter (·.2 != 0)).map fun part => part.1 ++ "=" ++ toString part.2
  "datetime.timedelta(" ++ (if shown.isEmpty then "0" else String.intercalate ", " shown) ++ ")"

def message : IsoFault → String
  | .malformed text => "Invalid isoformat string: " ++ Text.quoted text
  | .offsetRange microseconds =>
    "offset must be a timedelta strictly between -timedelta(hours=24) and timedelta(hours=24), not "
      ++ spanText microseconds ++ "."
  | .yearRange year => "year " ++ toString year ++ " is out of range"
  | .monthRange => "month must be in 1..12"
  | .dayRange => "day is out of range for month"
  | .hourRange => "hour must be in 0..23"
  | .minuteRange => "minute must be in 0..59"
  | .secondRange => "second must be in 0..59"

end IsoFault

namespace CalendarDate

/-- Refuses a date with a number out of range; the first such number tells why. -/
def checkRange (date : CalendarDate) : Except IsoFault Unit := do
  if date.year = 0 || 9999 < date.year then throw (.yearRange date.year)
  if date.month = 0 || 12 < date.month then throw .monthRange
  if date.day = 0 || daysIn date.year date.month < date.day then throw .dayRange

end CalendarDate

namespace Moment.Iso

open Text

def number? (digits : List Char) : Option Nat :=
  if digits.all isAsciiDigit then some (digitsValue digits) else none

/-- The number of characters that the date at the start of a text takes up. -/
def dateLength (text : List Char) : Nat :=
  if text.length = 7 then 7
  else if text[4]? = some '-' then
    if text[5]? = some 'W' && (text[8]? != some '-' || text[10]?.any isAsciiDigit) then 8 else 10
  else if text[4]? = some 'W' then
    let digits := 7 + ((text.drop 7).takeWhile isAsciiDigit).length
    if digits < 9 then digits else if digits % 2 = 0 then 7 else 8
  else 8

def readWeek? (year week weekday : List Char) : Option CalendarDate := do
  CalendarDate.ofWeek? (← number? year) (← number? week) (← number? weekday)

/-- Reads a date by month and day; its numbers may be out of range. -/
def readDay? (year month day : List Char) : Option CalendarDate := do
  return ⟨← number? year, ← number? month, ← number? day⟩

/-- Reads a date that takes up the whole text. -/
def readDate? (text : List Char) : Option CalendarDate :=
  let year := text.take 4
  match text.drop 4 with
  | ['-', 'W', a, b] | ['W', a, b] => readWeek? year [a, b] ['1']
  | ['-', 'W', a, b, '-', d] | ['W', a, b, d] => readWeek? year [a, b] [d]
  | ['-', a, b, '-', c, d] | [a, b, c, d] => readDay? year [a, b] [c, d]
  | _ => none

/-- The parts of a time of day or of an offset: hour, minute and second, those that were written,
and the fraction. `ended` tells that nothing is left of the text. -/
structure Parts where
  units : List Nat
  microsecond : Nat
  ended : Bool

/-- Reads a fraction from the first `span` bytes of a text, cut after the sixth digit. -/
def readFraction? (units : List Nat) (span : Nat) (text : List Char) : Option Parts := do
  let count := min span 6
  if text.length < count then none
  else
    let value ← number? (text.take count)
    let rest := (text.drop count).dropWhile isAsciiDigit
    return ⟨units, value * Nat.pow 10 (6 - count), rest.isEmpty⟩

/-- Reads up to `left` more units of two digits each and a fraction. The parts take up the first
`span` bytes of the text; a last byte after a unit is not looked at. `colons` tells whether there
are colons between units, which the first one decides. -/
def readParts? (left : Nat) (colons : Option Bool) (units : List Nat) (span : Nat)
    (text : List Char) : Option Parts :=
  match left with
  | 0 => readFraction? units span text
  | left + 1 =>
    match text with
    | a :: b :: rest => do
      let units := units ++ [← number? [a, b]]
      let next := rest.head?
      let colons := colons.getD (next == some ':')
      if span ≤ 3 then return ⟨units, 0, next.isNone⟩
      else if colons && next == some ':' then
        readParts? left (some true) units (span - 3) rest.tail
      else if next == some '.' || next == some ',' then readFraction? units (span - 3) rest.tail
      else if colons then none
      else readParts? left (some false) units (span - 2) rest
    | _ => none

def startsOffset (c : Char) : Bool := c == '+' || c == '-' || c == 'Z'

def readOffset? (text : List Char) : Option Int :=
  match text with
  | ['Z'] => some 0
  | sign :: digits => do
    if sign = 'Z' then none
    else
      let parts ← readParts? 3 none [] (String.ofList digits).utf8ByteSize digits
      if !parts.ended then none
      else
        let seconds := 3600 * parts.units.getD 0 0 + 60 * parts.units.getD 1 0 +
          parts.units.getD 2 0
        return signed (sign == '-') (1000000 * seconds + parts.microsecond)
  | [] => none

def readTime? (text : List Char) : Option (Parts × Option Int) := do
  let time := text.takeWhile fun c => !startsOffset c
  let parts ← readParts? 3 none [] (String.ofList time).utf8ByteSize text
  match text.drop time.length with
  | [] => if parts.ended then some (parts, none) else none
  | offset => return (parts, some (← readOffset? offset))

def readText? (text : List Char) : Option (CalendarDate × Parts × Option Int) := do
  let date ← readDate? (text.take (dateLength text))
  match text.drop (dateLength text) with
  | [] => return (date, ⟨[], 0, true⟩, none)
  | _ :: time => return (date, ← readTime? time)

def dayLength : Int := 86400000000

/-- The time of day of parts that are in range. An offset of less than a second counts as none from
universal time. -/
def timeOfDay (parts : Parts) (offset : Option Int) : Except IsoFault TimeOfDay := do
  let hour := parts.units.getD 0 0
  let minute := parts.units.getD 1 0
  let second := parts.units.getD 2 0
  if 23 < hour then throw .hourRange
  if 59 < minute then throw .minuteRange
  if 59 < second then throw .secondRange
  return { hour, minute, second, microsecond := parts.microsecond
           offset := offset.map fun span => if span.natAbs < 1000000 then 0 else span }

end Moment.Iso

namespace Moment

/-- Reads a date from an ISO 8601 text that has no time of day. Only the size of a date is asked
for, so two bytes after one without hyphens make no difference. -/
def dateOfIso (text : String) : Except IsoFault CalendarDate := do
  let chars := text.toList
  let date := if text.utf8ByteSize = 10 && chars[4]? != some '-' then chars.take 8 else chars
  match Iso.readDate? date with
  | none => throw (.malformed text)
  | some date =>
    date.checkRange
    return date

def ofIso (text : String) : Except IsoFault Moment := do
  match Iso.readText? text.toList with
  | none => throw (.malformed text)
  | some (date, parts, offset) =>
    if let some span := offset then
      if span ≤ -Iso.dayLength ∨ Iso.dayLength ≤ span then throw (.offsetRange span)
    date.checkRange
    return ⟨date, some (← Iso.timeOfDay parts offset)⟩

end Moment

end Reporting
