import GeoMetadata.Time.Calendar
import GeoMetadata.Text.Digits

/-!
# Reading ISO 8601 dates and times

A date is a year, a year and a month, a calendar day, a day of a week of the year, or a day
of the year; hyphens stand everywhere or nowhere, but a month alone needs its hyphen.  After
the date any single character may introduce the time: hours, minutes and seconds with colons
everywhere or nowhere, a fraction of a second after a point or a comma, and an offset.  Hour
24 is midnight at the end of the day.  Every number has a fixed number of ASCII digits: readers
differ in whether they also take numbers that are shorter, or that have a sign, a blank or an
underscore among their digits, and this one does not.
-/

namespace GeoMetadata.Time.Iso8601

open Text

/-- Why a text is no date and time: its form is wrong, or it names a day after the last. -/
inductive Fault where
  | malformed
  | outOfRange (detail : String)
  deriving DecidableEq, Repr

/-- A reader of dates and times. -/
abbrev Reader := String → Except Fault DateTime

/-- The fault of a day after the last. -/
def Fault.afterLast : Fault := .outOfRange CalendarFault.outOfRange.message

/-- Reads exactly `width` digits and gives the rest. -/
def number? (width : Nat) (text : List Char) : Option (Nat × List Char) :=
  let digits := text.take width
  if digits.length = width ∧ digits.all isAsciiDigit then
    some (ofAsciiDigits digits, text.drop width)
  else none

/-- The year, month and day that a text begins with, not yet known to be a date. -/
structure DayNumbers where
  year : Nat
  month : Nat
  day : Nat
  deriving DecidableEq

/-- A year, a year and a month, or a calendar day. -/
def calendarDay? (text : List Char) : Option (DayNumbers × List Char) := do
  let (year, rest) ← number? 4 text
  match rest with
  | [] => some (⟨year, 1, 1⟩, [])
  | '-' :: rest =>
    let (month, rest) ← number? 2 rest
    match rest with
    | [] => some (⟨year, month, 1⟩, [])
    | '-' :: rest =>
      let (day, rest) ← number? 2 rest
      some (⟨year, month, day⟩, rest)
    | _ => none
  | rest =>
    let (month, rest) ← number? 2 rest
    let (day, rest) ← number? 2 rest
    some (⟨year, month, day⟩, rest)

/-- The first day of the first week of a year: the Monday of the week that has the fourth of
January. -/
def firstWeek? (year : Nat) : Option Int :=
  match Date.make year 1 4 with
  | .ok d => some ((d.ordinal : Int) - (d.weekday - 1 : Nat))
  | .error _ => none

/-- The numbers of a day. -/
def numbersOf (d : Date) : DayNumbers := ⟨d.year, d.month, d.day⟩

/-- The number after `W`, the day of that week if one is given, and the rest. A hyphen stands
before the day exactly if one stands before the week. -/
def weekAndDay? (hyphen : Bool) (text : List Char) : Option (Nat × Nat × List Char) := do
  let (week, rest) ← number? 2 text
  match hyphen, rest with
  | _, [] => some (week, 1, [])
  | true, '-' :: rest =>
    let (day, rest) ← number? 1 rest
    some (week, day, rest)
  | true, _ => none
  | false, rest =>
    let (day, rest) ← number? 1 rest
    some (week, day, rest)

/-- The day with a number. -/
def dayNumbered (n : Int) (rest : List Char) : Except Fault (DayNumbers × List Char) :=
  match Date.ofOrdinal? n with
  | some d => .ok (numbersOf d, rest)
  | none => .error .afterLast

/-- A day of a week of the year, or a day of the year. -/
def ordinalDay (text : List Char) : Except Fault (DayNumbers × List Char) := do
  let some (year, rest) := number? 4 text | .error .malformed
  let (hyphen, rest) := match rest with
    | '-' :: rest => (true, rest)
    | rest => (false, rest)
  match rest with
  | 'W' :: rest =>
    let some (week, day, rest) := weekAndDay? hyphen rest | .error .malformed
    if week = 0 ∨ 53 < week ∨ day = 0 ∨ 7 < day then .error .malformed
    else
      let some first := firstWeek? year | .error .malformed
      dayNumbered (first + ((week - 1) * 7 + (day - 1) : Nat)) rest
  | rest =>
    let some (past, rest) := number? 3 rest | .error .malformed
    let .ok newYear := Date.make year 1 1 | .error .malformed
    if past = 0 ∨ (if isLeap year then 366 else 365) < past then .error .malformed
    else dayNumbered (newYear.ordinal + past - 1 : Nat) rest

/-- The date that a text begins with. -/
def day (text : List Char) : Except Fault (DayNumbers × List Char) :=
  match calendarDay? text with
  | some found => .ok found
  | none => ordinalDay text

/-- The offset after its sign: hours, and minutes after an optional colon. -/
def offsetOf? (negative : Bool) (text : List Char) : Option Int := do
  let (hours, rest) ← number? 2 text
  let minutes ← match rest with
    | [] => some 0
    | ':' :: rest => do
      let (minutes, rest) ← number? 2 rest
      if rest = [] then some minutes else none
    | rest => do
      let (minutes, rest) ← number? 2 rest
      if rest = [] then some minutes else none
  if 59 < minutes ∨ 23 < hours then none
  else
    let seconds : Int := ((hours * 60 + minutes) * 60 : Nat)
    some (if negative then -seconds else seconds)

/-- An offset that makes up the whole text: `Z`, or a sign with hours and minutes. -/
def offset? : List Char → Option Int
  | ['Z'] => some 0
  | ['z'] => some 0
  | '+' :: text => offsetOf? false text
  | '-' :: text => offsetOf? true text
  | _ => none

/-- A character that begins an offset. -/
def startsOffset (c : Char) : Bool := c = '-' || c = '+' || c = 'Z' || c = 'z'

/-- The numbers of a time, not yet known to be one. -/
structure TimeNumbers where
  hour : Nat
  minute : Nat
  second : Nat
  microsecond : Nat
  offset : Option Int
  deriving DecidableEq

/-- The microseconds of a fraction, of which the first six digits count. -/
def microsecondsOf (digits : List Char) : Nat :=
  let kept := digits.take 6
  ofAsciiDigits kept * Nat.pow 10 (6 - kept.length)

/-- What may follow a number of a time: nothing, or an offset up to the end. Otherwise `go`
reads on. -/
def endOr (numbers : TimeNumbers) (text : List Char)
    (go : List Char → Option TimeNumbers) : Option TimeNumbers :=
  match text with
  | [] => some numbers
  | c :: _ =>
    if startsOffset c then (offset? text).map fun z => { numbers with offset := some z }
    else go text

/-- What follows the seconds: a fraction, then nothing or an offset. -/
def fraction? (numbers : TimeNumbers) (text : List Char) : Option TimeNumbers :=
  endOr numbers text fun text =>
    match text with
    | mark :: rest =>
      let (digits, rest) := rest.span isAsciiDigit
      if (mark = '.' ∨ mark = ',') ∧ digits ≠ [] then
        endOr { numbers with microsecond := microsecondsOf digits } rest fun _ => none
      else none
    | [] => none

/-- The time of day that makes up a text. -/
def time? (text : List Char) : Option TimeNumbers :=
  if text.length < 2 then none
  else endOr ⟨0, 0, 0, 0, none⟩ text fun text => do
    let (hour, rest) ← number? 2 text
    endOr ⟨hour, 0, 0, 0, none⟩ rest fun rest => do
      let (colons, rest) := match rest with
        | ':' :: rest => (true, rest)
        | rest => (false, rest)
      let (minute, rest) ← number? 2 rest
      endOr ⟨hour, minute, 0, 0, none⟩ rest fun rest => do
        let rest ← match colons, rest with
          | true, ':' :: rest => some rest
          | true, _ => none
          | false, rest => some rest
        let (second, rest) ← number? 2 rest
        fraction? ⟨hour, minute, second, 0, none⟩ rest

/-- The date and time of the numbers read. Hour 24 is only the end of the day. -/
def assemble (numbers : DayNumbers) (time : TimeNumbers) : Except Fault DateTime := do
  let endOfDay := time.hour = 24
  if endOfDay ∧ ¬(time.minute = 0 ∧ time.second = 0 ∧ time.microsecond = 0) then
    .error .malformed
  let hour := if endOfDay then 0 else time.hour
  let .ok date := Date.make numbers.year numbers.month numbers.day | .error .malformed
  let .ok clock := TimeOfDay.make hour time.minute time.second time.microsecond
    | .error .malformed
  let offset ← match time.offset with
    | none => pure none
    | some z => match Offset.make z with
      | .ok z => pure (some z)
      | .error _ => .error .malformed
  let read : DateTime := ⟨date, clock, offset⟩
  if endOfDay then
    match read.nextDay? with
    | some t => .ok t
    | none => .error .afterLast
  else .ok read

/-- Reads a whole text as a date and time. -/
def read : Reader := fun s => do
  let text := s.toList
  if text.any (fun c => 0x80 ≤ c.toNat) then .error .malformed
  let (numbers, rest) ← day text
  match rest with
  | [] => assemble numbers ⟨0, 0, 0, 0, none⟩
  | _ :: rest =>
    match time? rest with
    | some time => assemble numbers time
    | none => .error .malformed

end GeoMetadata.Time.Iso8601
