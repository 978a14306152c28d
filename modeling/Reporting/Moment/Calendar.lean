import Reporting.Moment

/-!
# Counting days

Dates are found by the number of days that precede them: within their year (`CalendarDate.ofDays?`),
within the weeks of a year (`CalendarDate.ofWeek?`), and since the first day of year zero
(`CalendarDate.ofDayNumber?`). `Moment.ofTimestamp` counts seconds from the start of 1970.
-/

namespace Reporting

namespace CalendarDate

def yearLength (year : Nat) : Nat := if isLeap year then 366 else 365

/-- The month, among those listed, and the day in it that so many days precede. -/
def monthAndDay? (year : Nat) : (months : List Nat) → (days : Nat) → Option (Nat × Nat)
  | [], _ => none
  | month :: rest, days =>
    if days < daysIn year month then some (month, days + 1)
    else monthAndDay? year rest (days - daysIn year month)

/-- The date that so many days of a year precede. -/
def ofDays? (year days : Nat) : Option CalendarDate :=
  (monthAndDay? year ((List.range 12).map (· + 1)) days).map fun (month, day) =>
    ⟨year, month, day⟩

/-- The weekday of the first of January, counted from Monday. -/
def firstWeekday (year : Nat) : Nat :=
  let before := year - 1
  (before + before / 4 - before / 100 + before / 400) % 7

/-- Does a year have a week 53? It does when it starts on a Thursday, or is a leap year that starts
on a Wednesday. -/
def isLong (year : Nat) : Bool :=
  year != 0 && (firstWeekday year == 3 || (firstWeekday year == 2 && isLeap year))

/-- The date of a weekday, from one for Monday, in a week of a year. The first week is the one that
holds the first Thursday, so a week may reach into the year before or after. Weeks are counted from
year one on; a week of year zero has no month. -/
def ofWeek? (year week weekday : Nat) : Option CalendarDate :=
  if week = 0 || 53 < week || (week = 53 && !isLong year) || weekday = 0 || 7 < weekday then none
  else if year = 0 then some ⟨1, 0, 1⟩
  else
    let first := firstWeekday year
    let start : Int := if first ≤ 3 then -first else 7 - first
    let days := start + 7 * (week - 1 : Nat) + (weekday - 1 : Nat)
    if days < 0 then ofDays? (year - 1) (yearLength (year - 1) - days.natAbs)
    else if days.toNat < yearLength year then ofDays? year days.toNat
    else ofDays? (year + 1) (days.toNat - yearLength year)

/-- The date that so many days precede since the start of a year, among so many years. -/
def ofDaysSince? (year : Nat) : (years days : Nat) → Option CalendarDate
  | 0, _ => none
  | years + 1, days =>
    if days < yearLength year then ofDays? year days
    else ofDaysSince? (year + 1) years (days - yearLength year)

/-- The number of days in 400 years, after which the calendar repeats itself. -/
def cycleLength : Nat := 146097

/-- The date that so many days precede since the first day of year zero. -/
def ofDayNumber? (days : Nat) : Option CalendarDate :=
  (ofDaysSince? 0 400 (days % cycleLength)).map fun date =>
    { date with year := date.year + 400 * (days / cycleLength) }

end CalendarDate

inductive TimestampFault where
  | tooEarly
  | tooLate
  deriving DecidableEq

def TimestampFault.message : TimestampFault → String
  | .tooEarly => "dates before 0000 are not supported as unix timestamps"
  | .tooLate => "dates after 9999 are not supported as unix timestamps"

namespace Moment

/-- Timestamps further from zero than this count milliseconds, the others seconds. -/
def greatestSeconds : Nat := 20000000000

/-- The seconds from the start of year zero to the start of 1970. -/
def secondsBefore1970 : Int := 62167219200

/-- The seconds of the years zero to 9999. -/
def secondsOfCalendar : Int := 315569520000

/-- The moment in universal time of a timestamp and some microseconds more. -/
def ofTimestamp (timestamp : Int) (microseconds : Nat) : Except TimestampFault Moment :=
  let unit : Int := if timestamp.natAbs ≤ greatestSeconds then 1000000 else 1000
  let total := timestamp * unit + microseconds
  let seconds := Int.fdiv total 1000000 + secondsBefore1970
  if seconds < 0 then .error .tooEarly
  else if secondsOfCalendar ≤ seconds then .error .tooLate
  else
    match CalendarDate.ofDayNumber? (seconds.toNat / 86400) with
    | none => .error .tooLate
    | some date =>
      let second := seconds.toNat % 86400
      .ok ⟨date, some { hour := second / 3600, minute := second / 60 % 60, second := second % 60
                        microsecond := (Int.fmod total 1000000).toNat, offset := some 0 }⟩

end Moment

end Reporting
