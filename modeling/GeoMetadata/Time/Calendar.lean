/-!
# The calendar

Dates of the proleptic Gregorian calendar in the years 1 to 9999, times of day to the
microsecond, and the two together with or without an offset from UTC.  Days are counted from
the first day of year 1, which has number 1.
-/

namespace GeoMetadata.Time

/-- The last year of the calendar. -/
def lastYear : Nat := 9999

/-- A year with a twenty-ninth of February. -/
def isLeap (year : Nat) : Bool := year % 4 = 0 && (year % 100 ≠ 0 || year % 400 = 0)

/-- The lengths of the months of a year. -/
def monthLengths (year : Nat) : List Nat :=
  [31, if isLeap year then 29 else 28, 31, 30, 31, 30, 31, 31, 30, 31, 30, 31]

/-- The number of days of a month; zero if there is no such month. -/
def daysInMonth (year month : Nat) : Nat := ((0 :: monthLengths year)[month]?).getD 0

/-- The number of days in the years before `year`. -/
def daysBeforeYear (year : Nat) : Nat :=
  let past := year - 1
  365 * past + past / 4 - past / 100 + past / 400

/-- The number of days of some months with these lengths. -/
def totalDays (lengths : List Nat) : Nat := lengths.foldr (· + ·) 0

@[simp] theorem totalDays_nil : totalDays [] = 0 := rfl

@[simp] theorem totalDays_cons (length : Nat) (rest : List Nat) :
    totalDays (length :: rest) = length + totalDays rest := rfl

/-- The number of days of a year in the months before `month`. -/
def daysBeforeMonth (year month : Nat) : Nat := totalDays ((monthLengths year).take (month - 1))

/-- The three numbers are a day of the calendar. -/
def isDay (year month day : Nat) : Bool :=
  1 ≤ year && year ≤ lastYear && 1 ≤ day && day ≤ daysInMonth year month

/-- A day of the calendar. -/
structure Date where
  year : Nat
  month : Nat
  day : Nat
  valid : isDay year month day = true
  deriving DecidableEq

/-- Why numbers make no date and time. -/
inductive CalendarFault where
  | year (value : Nat)
  | month
  | day
  | hour
  | minute
  | second
  | offset (seconds : Int)
  | outOfRange
  deriving DecidableEq, Repr

/-- A span of time as a literal, in days and seconds as far as they are not zero. -/
def spanLiteral (seconds : Int) : String :=
  let days := seconds / 86400
  let rest := seconds % 86400
  let parts := (if days = 0 then [] else ["days=" ++ toString days])
    ++ (if rest = 0 then [] else ["seconds=" ++ toString rest])
  "datetime.timedelta(" ++ String.intercalate ", " parts ++ ")"

/-- What is said about numbers that make no date and time. -/
def CalendarFault.message : CalendarFault → String
  | .year value => "year " ++ toString value ++ " is out of range"
  | .month => "month must be in 1..12"
  | .day => "day is out of range for month"
  | .hour => "hour must be in 0..23"
  | .minute => "minute must be in 0..59"
  | .second => "second must be in 0..59"
  | .offset seconds =>
    "offset must be a timedelta strictly between -timedelta(hours=24) and timedelta(hours=24), not "
      ++ spanLiteral seconds ++ "."
  | .outOfRange => "date value out of range"

namespace Date

/-- The day with these numbers, or what is wrong with them; the year is looked at first and
the day last. -/
def make (year month day : Nat) : Except CalendarFault Date :=
  if h : isDay year month day = true then .ok ⟨year, month, day, h⟩
  else if year = 0 ∨ lastYear < year then .error (.year year)
  else if month = 0 ∨ 12 < month then .error .month
  else .error .day

/-- The number of a day, counted from the first day of year 1. -/
def ordinal (d : Date) : Nat :=
  daysBeforeYear d.year + daysBeforeMonth d.year d.month + d.day

/-- The month and the day of the month of the day with `past` days before it in the year,
given the lengths of this month and of those after it. -/
def monthFrom (month : Nat) : List Nat → Nat → Nat × Nat
  | [], past => (month, past + 1)
  | length :: lengths, past =>
    if past < length then (month, past + 1) else monthFrom (month + 1) lengths (past - length)

/-- The year with `past` days before it and in it, and how many of them are in it. -/
def yearFrom (past : Nat) : Nat × Nat :=
  let centuries := past % 146097
  let century := min (centuries / 36524) 3
  let rest := centuries - century * 36524
  let single := min (rest % 1461 / 365) 3
  (past / 146097 * 400 + century * 100 + rest / 1461 * 4 + single + 1,
    rest % 1461 - single * 365)

/-- The day with a number, if it is in the calendar. -/
def ofOrdinal? (n : Int) : Option Date :=
  if n ≤ 0 then none
  else
    let (year, past) := yearFrom (n.toNat - 1)
    let (month, day) := monthFrom 1 (monthLengths year) past
    if h : isDay year month day = true then some ⟨year, month, day, h⟩ else none

/-- The day of the week, from 1 on Monday to 7 on Sunday. -/
def weekday (d : Date) : Nat := (d.ordinal + 6) % 7 + 1

end Date

/-- The three numbers and the microseconds are a time of day. -/
def isTime (hour minute second microsecond : Nat) : Bool :=
  hour < 24 && minute < 60 && second < 60 && microsecond < 1000000

/-- A time of day. -/
structure TimeOfDay where
  hour : Nat
  minute : Nat
  second : Nat
  microsecond : Nat
  valid : isTime hour minute second microsecond = true
  deriving DecidableEq

namespace TimeOfDay

/-- The start of the day. -/
def midnight : TimeOfDay := ⟨0, 0, 0, 0, rfl⟩

/-- The time with these numbers, or the first of them that is too large. The microseconds
are taken modulo a million. -/
def make (hour minute second microsecond : Nat) : Except CalendarFault TimeOfDay :=
  if h : isTime hour minute second (microsecond % 1000000) = true then
    .ok ⟨hour, minute, second, microsecond % 1000000, h⟩
  else if 24 ≤ hour then .error .hour
  else if 60 ≤ minute then .error .minute
  else .error .second

/-- The microseconds since midnight. -/
def microseconds (t : TimeOfDay) : Nat :=
  ((t.hour * 60 + t.minute) * 60 + t.second) * 1000000 + t.microsecond

end TimeOfDay

/-- The number of seconds of a day. -/
def secondsPerDay : Nat := 86400

/-- The number of microseconds of a day. -/
def microsecondsPerDay : Nat := secondsPerDay * 1000000

/-- An offset from UTC in seconds, less than a day to either side. -/
structure Offset where
  seconds : Int
  bounded : seconds.natAbs < secondsPerDay
  deriving DecidableEq

/-- No offset. -/
def Offset.utc : Offset := ⟨0, by decide⟩

/-- The offset of so many seconds, if it is less than a day. -/
def Offset.make (seconds : Int) : Except CalendarFault Offset :=
  if h : seconds.natAbs < secondsPerDay then .ok ⟨seconds, h⟩ else .error (.offset seconds)

/-- A date and a time of day; without an offset it is in UTC. -/
structure DateTime where
  date : Date
  time : TimeOfDay
  offset : Option Offset
  deriving DecidableEq

namespace DateTime

/-- The instant in microseconds from midnight UTC before the first day of year 1. -/
def instant (t : DateTime) : Int :=
  ((t.date.ordinal : Int) - 1) * microsecondsPerDay + t.time.microseconds
    - (t.offset.elim 0 Offset.seconds) * 1000000

theorem isTime_ofSeconds {seconds microsecond : Nat} (hseconds : seconds < secondsPerDay)
    (hmicrosecond : microsecond < 1000000) :
    isTime (seconds / 3600) (seconds / 60 % 60) (seconds % 60) microsecond = true := by
  unfold secondsPerDay at hseconds
  simp only [isTime, Bool.and_eq_true, decide_eq_true_eq]
  omega

/-- The time of day so many microseconds after midnight; whole days are dropped. -/
def timeAfterMidnight (microseconds : Nat) : TimeOfDay :=
  { hour := microseconds / 1000000 % secondsPerDay / 3600
    minute := microseconds / 1000000 % secondsPerDay / 60 % 60
    second := microseconds / 1000000 % secondsPerDay % 60
    microsecond := microseconds % 1000000
    valid := isTime_ofSeconds (Nat.mod_lt _ (Nat.zero_lt_succ _)) (Nat.mod_lt _ (Nat.zero_lt_succ _)) }

/-- The date and time in UTC of an instant, if its year is in the calendar. -/
def ofInstant? (microseconds : Int) : Option DateTime :=
  (Date.ofOrdinal? (microseconds / microsecondsPerDay + 1)).map fun date =>
    ⟨date, timeAfterMidnight (microseconds % microsecondsPerDay).toNat, some .utc⟩

/-- The same date and time of the next day. -/
def nextDay? (t : DateTime) : Option DateTime :=
  (Date.ofOrdinal? (t.date.ordinal + 1)).map fun date => { t with date := date }

end DateTime

end GeoMetadata.Time
