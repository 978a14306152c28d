import Reporting.Text.Digit

/-!
# Dates and times

A `Moment` is a calendar date with or without a time of day, and a time of day may carry an offset
from universal time. `Moment.read` reads the ISO forms `YYYY-MM-DD` and
`YYYY-MM-DD HH:MM[:SS[.ffffff]][offset]` with an offset of hours and minutes, and `Moment.text`
writes them with a chosen separator, the fraction only where it is not zero.
-/

namespace Reporting

structure CalendarDate where
  year : Nat
  month : Nat
  day : Nat
  deriving DecidableEq

/-- A time of day; the offset from universal time is in microseconds. -/
structure TimeOfDay where
  hour : Nat := 0
  minute : Nat := 0
  second : Nat := 0
  microsecond : Nat := 0
  offset : Option Int := none
  deriving DecidableEq

/-- A date, or a date with a time of day. -/
structure Moment where
  date : CalendarDate
  time : Option TimeOfDay
  deriving DecidableEq

inductive DateFault where
  | tooShort
  | yearCharacter
  | separator
  | monthCharacter
  | dayCharacter
  | monthRange
  | dayRange
  | extraCharacters
  deriving DecidableEq

def DateFault.message : DateFault → String
  | .tooShort => "input is too short"
  | .yearCharacter => "invalid character in year"
  | .separator => "invalid date separator, expected `-`"
  | .monthCharacter => "invalid character in month"
  | .dayCharacter => "invalid character in day"
  | .monthRange => "month value is outside expected range of 1-12"
  | .dayRange => "day value is outside expected range"
  | .extraCharacters => "unexpected extra characters at the end of the input"

namespace CalendarDate

/-- Every fourth year is a leap year, save the centuries that are not multiples of 400. -/
def isLeap (year : Nat) : Bool := (year % 4 == 0 && year % 100 != 0) || year % 400 == 0

def daysIn (year month : Nat) : Nat :=
  if month == 2 then (if isLeap year then 29 else 28)
  else if month == 4 || month == 6 || month == 9 || month == 11 then 30
  else 31

end CalendarDate

namespace Moment

open Text

/-- The value of a field of digits, or the fault of that field. -/
def digitField (fault : DateFault) (digits : List Char) : Except DateFault Nat :=
  if digits.all isAsciiDigit then .ok (digitsValue digits) else .error fault

/-- Every character as often as it has bytes. -/
def spread (text : List Char) : List Char := text.flatMap fun c => List.replicate c.utf8Size c

/-- Reads a date from the first ten bytes of a text. -/
def readDate (text : List Char) : Except DateFault CalendarDate := do
  match spread text with
  | y1 :: y2 :: y3 :: y4 :: s1 :: m1 :: m2 :: s2 :: d1 :: d2 :: _ =>
    let year ← digitField .yearCharacter [y1, y2, y3, y4]
    if s1 != '-' then throw .separator
    let month ← digitField .monthCharacter [m1, m2]
    if s2 != '-' then throw .separator
    let day ← digitField .dayCharacter [d1, d2]
    if month == 0 || 12 < month then throw .monthRange
    if day == 0 || CalendarDate.daysIn year month < day then throw .dayRange
    return ⟨year, month, day⟩
  | _ => throw .tooShort

def twoDigits? (bound : Nat) (a b : Char) : Option Nat :=
  if isAsciiDigit a && isAsciiDigit b && digitsValue [a, b] < bound then some (digitsValue [a, b])
  else none

def longMinus : Char := Char.ofNat 0x2212

/-- Reads an offset: nothing, `Z`, or a sign with hours and minutes, which may have a colon between
them. -/
def readOffset? : List Char → Option (Option Int)
  | [] => some none
  | ['Z'] | ['z'] => some (some 0)
  | [sign, h1, h2, ':', m1, m2] | [sign, h1, h2, m1, m2] => do
    let negative ← if sign == '+' then some false
      else if sign == '-' || sign == longMinus then some true else none
    let hours ← twoDigits? 24 h1 h2
    let minutes ← twoDigits? 60 m1 m2
    return some (signed negative ((60 * hours + minutes) * 60000000))
  | _ => none

/-- Reads a fraction of a second after a point or a comma, cut after the sixth digit, and what
follows it. -/
def readFraction? : List Char → Option (Nat × List Char)
  | '.' :: rest | ',' :: rest =>
    let digits := rest.takeWhile isAsciiDigit
    if digits.isEmpty then none
    else
      let six := (digits ++ List.replicate (6 - digits.length) '0').take 6
      some (digitsValue six, rest.dropWhile isAsciiDigit)
  | rest => some (0, rest)

/-- Reads seconds and their fraction after a colon, and what follows them. -/
def readSeconds? : List Char → Option (Nat × Nat × List Char)
  | ':' :: s1 :: s2 :: rest => do
    let second ← twoDigits? 60 s1 s2
    let (microsecond, rest) ← readFraction? rest
    return (second, microsecond, rest)
  | rest => some (0, 0, rest)

/-- Reads a time of day with an optional fraction and offset. -/
def readTime? : List Char → Option TimeOfDay
  | h1 :: h2 :: ':' :: m1 :: m2 :: rest => do
    let hour ← twoDigits? 24 h1 h2
    let minute ← twoDigits? 60 m1 m2
    let (second, microsecond, rest) ← readSeconds? rest
    let offset ← readOffset? rest
    return { hour, minute, second, microsecond, offset }
  | _ => none

/-- Reads a date, or a date and a time of day after `T` or a space. -/
def read (text : String) : Except DateFault Moment := do
  let date ← readDate text.toList
  match text.toList.drop 10 with
  | [] => return ⟨date, none⟩
  | separator :: rest =>
    if separator == 'T' || separator == 't' || separator == ' ' || separator == '_' then
      match readTime? rest with
      | some time => return ⟨date, some time⟩
      | none => throw .extraCharacters
    else throw .extraCharacters

/-- The start of the day where only a date is known. -/
def atMidnight (m : Moment) : Moment := { m with time := some (m.time.getD {}) }

def padded (width n : Nat) : String :=
  let digits := Nat.toDigits 10 n
  String.ofList (List.replicate (width - digits.length) '0' ++ digits)

/-- A fraction of a second after its point, where it is not zero. -/
def showFraction (microsecond : Nat) : String :=
  if microsecond = 0 then "" else "." ++ padded 6 microsecond

/-- An offset with its sign; seconds are shown only where there are any. -/
def showOffset (offset : Int) : String :=
  let seconds := offset.natAbs / 1000000
  let microsecond := offset.natAbs % 1000000
  (if offset < 0 then "-" else "+") ++ padded 2 (seconds / 3600) ++ ":" ++
    padded 2 (seconds / 60 % 60) ++
    (if seconds % 60 = 0 ∧ microsecond = 0 then ""
      else ":" ++ padded 2 (seconds % 60) ++ showFraction microsecond)

/-- The ISO text, with the given separator between the date and the time of day. -/
def text (separator : String) (m : Moment) : String :=
  let date := padded 4 m.date.year ++ "-" ++ padded 2 m.date.month ++ "-" ++ padded 2 m.date.day
  match m.time with
  | none => date
  | some t =>
    date ++ separator ++ padded 2 t.hour ++ ":" ++ padded 2 t.minute ++ ":" ++ padded 2 t.second ++
      showFraction t.microsecond ++
      (t.offset.map showOffset).getD ""

end Moment

end Reporting
