/-!
# Dates and timestamps

Dates of the Gregorian calendar from the year 1 to the year 9999, and timestamps with a resolution
of a microsecond and an optional offset from universal time.
-/

namespace ParenLint

/-- A day of the calendar. -/
structure Date where
  year : Nat
  month : Nat
  day : Nat
  deriving DecidableEq, Repr, Inhabited

/-- A moment of a day. -/
structure Timestamp where
  date : Date
  hour : Nat
  minute : Nat
  second : Nat
  microsecond : Nat
  /-- Minutes ahead of universal time, if the timestamp is tied to it. -/
  zone : Option Int
  deriving DecidableEq, Repr, Inhabited

/-- Why numbers do not form a date or a timestamp. -/
inductive CalendarError
  | year (n : Nat)
  | month
  | day
  | hour
  | minute
  | second
  /-- An offset of a day or more, in minutes. -/
  | zone (minutes : Int)
  deriving DecidableEq, Repr

/-- Text of `n` filled with zeros to the given width. -/
def paddedNumber (width n : Nat) : String :=
  let ds := Nat.toDigits 10 n
  String.ofList (List.replicate (width - ds.length) '0' ++ ds)

/-- Whole days and remaining seconds of an offset in minutes. -/
def offsetParts (minutes : Int) : Int × Int :=
  (Int.fdiv minutes 1440, Int.fmod minutes 1440 * 60)

/-- An offset as messages name it: days and seconds, as far as they are not zero. -/
def offsetText (minutes : Int) : String :=
  let (days, seconds) := offsetParts minutes
  let parts := (if days = 0 then [] else [s!"days={days}"])
    ++ (if seconds = 0 then [] else [s!"seconds={seconds}"])
  "datetime.timedelta(" ++ (if parts.isEmpty then "0" else ", ".intercalate parts) ++ ")"

namespace CalendarError

/-- The message of an error. -/
def message : CalendarError → String
  | year n => s!"year {n} is out of range"
  | month => "month must be in 1..12"
  | day => "day is out of range for month"
  | hour => "hour must be in 0..23"
  | minute => "minute must be in 0..59"
  | second => "second must be in 0..59"
  | zone minutes =>
    "offset must be a timedelta strictly between -timedelta(hours=24) and timedelta(hours=24), not "
      ++ offsetText minutes ++ "."

end CalendarError

namespace Date

/-- Whether a year has a leap day. -/
def isLeap (year : Nat) : Bool := year % 4 = 0 ∧ (year % 100 ≠ 0 ∨ year % 400 = 0)

/-- The number of days of a month. -/
def daysInMonth (year month : Nat) : Nat :=
  if month = 2 then (if isLeap year then 29 else 28)
  else if month = 4 ∨ month = 6 ∨ month = 9 ∨ month = 11 then 30
  else 31

/-- The date of the given numbers. -/
def ofNumbers (year month day : Nat) : Except CalendarError Date :=
  if year < 1 ∨ 9999 < year then .error (.year year)
  else if month < 1 ∨ 12 < month then .error .month
  else if day < 1 ∨ daysInMonth year month < day then .error .day
  else .ok ⟨year, month, day⟩

/-- The number of days from the beginning of the year 1. -/
def dayNumber (d : Date) : Nat :=
  let years := d.year - 1
  let leapDays := years / 4 - years / 100 + years / 400
  let months := (List.range (d.month - 1)).map fun m => daysInMonth d.year (m + 1)
  years * 365 + leapDays + months.foldl Nat.add 0 + d.day

/-- Year, month and day between hyphens. -/
def render (d : Date) : String :=
  paddedNumber 4 d.year ++ "-" ++ paddedNumber 2 d.month ++ "-" ++ paddedNumber 2 d.day

/-- The date as messages name it. -/
def inspect (d : Date) : String := s!"datetime.date({d.year}, {d.month}, {d.day})"

end Date

namespace Timestamp

/-- The timestamp of the given numbers. The offset is checked first, then the date, then the time
of day. -/
def ofNumbers (year month day hour minute second microsecond : Nat) (zone : Option Int) :
    Except CalendarError Timestamp := do
  match zone with
  | some z => if 1440 ≤ z.natAbs then throw (.zone z)
  | none => pure ()
  let date ← Date.ofNumbers year month day
  if 23 < hour then throw .hour
  if 59 < minute then throw .minute
  if 59 < second then throw .second
  return ⟨date, hour, minute, second, microsecond, zone⟩

/-- Minutes from the beginning of the year 1 in universal time, for a timestamp tied to it. -/
def universalMinutes (t : Timestamp) (zone : Int) : Int :=
  (t.date.dayNumber * 1440 + t.hour * 60 + t.minute : Nat) - zone

/-- Whether two timestamps name the same moment. One that is tied to universal time and one that is
not are different. -/
def sameMoment (s t : Timestamp) : Bool :=
  match s.zone, t.zone with
  | some y, some z =>
    s.universalMinutes y == t.universalMinutes z && s.second == t.second
      && s.microsecond == t.microsecond
  | none, none => s == t
  | _, _ => false

/-- The offset from universal time with its sign. -/
def zoneText (z : Int) : String :=
  (if z < 0 then "-" else "+") ++ paddedNumber 2 (z.natAbs / 60) ++ ":"
    ++ paddedNumber 2 (z.natAbs % 60)

/-- Date and time of day, with microseconds and offset as far as there are any. -/
def render (t : Timestamp) : String :=
  t.date.render ++ " " ++ paddedNumber 2 t.hour ++ ":" ++ paddedNumber 2 t.minute ++ ":"
    ++ paddedNumber 2 t.second
    ++ (if t.microsecond = 0 then "" else "." ++ paddedNumber 6 t.microsecond)
    ++ match t.zone with
      | some z => zoneText z
      | none => ""

/-- The timestamp as messages name it. Seconds and microseconds are left out from the end while
they are zero. -/
def inspect (t : Timestamp) : String :=
  let tail :=
    if t.microsecond ≠ 0 then [t.second, t.microsecond]
    else if t.second ≠ 0 then [t.second]
    else []
  let numbers := [t.date.year, t.date.month, t.date.day, t.hour, t.minute] ++ tail
  let zone := match t.zone with
    | none => []
    | some z =>
      if z = 0 then ["tzinfo=datetime.timezone.utc"]
      else ["tzinfo=datetime.timezone(" ++ offsetText z ++ ")"]
  "datetime.datetime(" ++ ", ".intercalate (numbers.map toString ++ zone) ++ ")"

end Timestamp

end ParenLint
