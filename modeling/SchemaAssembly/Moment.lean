/-!
# Dates and times

A moment is a day, or a time on a day with or without the distance of its clock from the universal
one. Days are those of the calendar in use today, also where they lie before it came into use.

- `Moment.checked` refuses what the calendar and the clock do not have.
- `Moment.same` tells whether two moments are equal: times with a known distance are compared as
  instants.
-/

namespace SchemaAssembly

/-- A day by its numbers. -/
structure Day where
  /-- the year -/
  year : Nat
  /-- the month of the year, from one -/
  month : Nat
  /-- the day of the month, from one -/
  day : Nat
  deriving DecidableEq, Repr

/-- A time of day by its numbers. -/
structure Clock where
  /-- the hour, from zero -/
  hour : Nat
  /-- the minute -/
  minute : Nat
  /-- the second -/
  second : Nat
  /-- the millionths of a second -/
  micro : Nat
  deriving DecidableEq, Repr

/-- A day, or a time on it. -/
inductive Moment where
  /-- a whole day -/
  | day (day : Day)
  /-- a time on a day, and by how many minutes the clock is ahead of the universal one, if known -/
  | time (day : Day) (clock : Clock) (ahead : Option Int)
  deriving DecidableEq, Repr

/-- How long something lasts, in words: days and the seconds beyond them, if there are any. -/
def durationText (minutes : Int) : String :=
  let days := minutes.fdiv 1440
  let seconds := minutes.fmod 1440 * 60
  let parts :=
    (if days = 0 then [] else ["days=" ++ toString days]) ++
      (if seconds = 0 then [] else ["seconds=" ++ toString seconds])
  "datetime.timedelta(" ++ (if parts.isEmpty then "0" else ", ".intercalate parts) ++ ")"

/-- Why numbers are no moment. -/
inductive CalendarFault where
  /-- there is no such year -/
  | year (year : Nat)
  /-- there is no such month -/
  | month
  /-- the month has no such day -/
  | day
  /-- there is no such hour -/
  | hour
  /-- there is no such minute -/
  | minute
  /-- there is no such second -/
  | second
  /-- no clock is ahead that far -/
  | ahead (minutes : Int)
  deriving DecidableEq, Repr

/-- The fault in words. -/
def CalendarFault.message : CalendarFault → String
  | year n => "year " ++ toString n ++ " is out of range"
  | month => "month must be in 1..12"
  | day => "day is out of range for month"
  | hour => "hour must be in 0..23"
  | minute => "minute must be in 0..59"
  | second => "second must be in 0..59"
  | ahead minutes =>
    "offset must be a timedelta strictly between -timedelta(hours=24) and " ++
      "timedelta(hours=24), not " ++ durationText minutes ++ "."

namespace Day

/-- Whether a year has a leap day. -/
def isLeap (year : Nat) : Bool :=
  year % 4 = 0 && (year % 100 ≠ 0 || year % 400 = 0)

/-- How many days a month has. -/
def daysOf (year month : Nat) : Nat :=
  if month = 2 then (if isLeap year then 29 else 28)
  else if [4, 6, 9, 11].contains month then 30 else 31

/-- How many days lie between the first day of the calendar and this one. -/
def number (d : Day) : Nat :=
  let before := d.year - 1
  let months := (List.range (d.month - 1)).foldl (fun sum m => sum + daysOf d.year (m + 1)) 0
  before * 365 + before / 4 - before / 100 + before / 400 + months + d.day

/-- A day that the calendar does not have is refused. -/
def checked (d : Day) : Except CalendarFault Unit :=
  if d.year = 0 then .error (.year d.year)
  else if d.month = 0 || 12 < d.month then .error .month
  else if d.day = 0 || daysOf d.year d.month < d.day then .error .day
  else .ok ()

/-- The numbers of a day. -/
def numbers (d : Day) : List Nat := [d.year, d.month, d.day]

end Day

namespace Clock

/-- A time that a clock does not show is refused. -/
def checked (c : Clock) : Except CalendarFault Unit :=
  if 23 < c.hour then .error .hour
  else if 59 < c.minute then .error .minute
  else if 59 < c.second then .error .second
  else .ok ()

/-- The numbers of a time, as far as those at the end are not zero. -/
def numbers (c : Clock) : List Nat :=
  [c.hour, c.minute] ++
    if c.micro ≠ 0 then [c.second, c.micro] else if c.second ≠ 0 then [c.second] else []

end Clock

namespace Moment

/-- **A moment that exists**: its distance from the universal clock is looked at first. -/
def checked : Moment → Except CalendarFault Moment
  | .day d => do
    d.checked
    return .day d
  | .time d clock ahead => do
    if let some minutes := ahead then
      if 1440 ≤ minutes.natAbs then throw (.ahead minutes)
    d.checked
    clock.checked
    return .time d clock ahead

/-- The millionths of a second from the start of the calendar to a time on the universal clock. -/
def instant (d : Day) (c : Clock) (ahead : Int) : Int :=
  (((d.number * 24 + c.hour : Nat) * 60 + c.minute : Int) - ahead) * 60000000 +
    (c.second * 1000000 + c.micro : Nat)

/-- **Whether two moments are equal.** -/
def same : Moment → Moment → Bool
  | .day d, .day e => d = e
  | .time d c none, .time e f none => d = e && c = f
  | .time d c (some a), .time e f (some b) => instant d c a = instant e f b
  | _, _ => false

/-- How the distance from the universal clock is shown. -/
def aheadText (minutes : Int) : String :=
  if minutes = 0 then "datetime.timezone.utc"
  else "datetime.timezone(" ++ durationText minutes ++ ")"

/-- **A moment as it is shown.** -/
def text : Moment → String
  | .day d => "datetime.date(" ++ ", ".intercalate (d.numbers.map toString) ++ ")"
  | .time d clock ahead =>
    let numbers := (d.numbers ++ clock.numbers).map toString
    let distance := ahead.toList.map fun minutes => "tzinfo=" ++ aheadText minutes
    "datetime.datetime(" ++ ", ".intercalate (numbers ++ distance) ++ ")"

end Moment

end SchemaAssembly
