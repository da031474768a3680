import GeoMetadata.Text.Digits
import GeoMetadata.Value

/-!
# The timestamps of YAML

A timestamp is a date, or a date with a time and possibly an offset.  The fraction of its
seconds is rounded to microseconds, a half going up.
-/

namespace GeoMetadata.Yaml

open Text Time

/-- The numbers of a time as they are written. -/
structure WrittenTime where
  hour : Nat
  minute : Nat
  second : Nat
  fraction : List Char
  /-- The offset in seconds. -/
  offset : Option Int

/-- The numbers of a timestamp as they are written. The full form of a date has two digits
for its month and its day. -/
structure WrittenTimestamp where
  year : Nat
  month : Nat
  day : Nat
  isFullDate : Bool
  time : Option WrittenTime

/-- Exactly so many digits at the start of a text, and the rest. -/
def fixedDigits? (count : Nat) (text : List Char) : Option (Nat × List Char) :=
  let digits := text.take count
  if digits.length = count ∧ digits.all isAsciiDigit then
    some (ofAsciiDigits digits, text.drop count)
  else none

/-- One digit or two at the start of a text, and the rest. -/
def shortDigits? (text : List Char) : Option (Nat × List Char) :=
  fixedDigits? 2 text <|> fixedDigits? 1 text

/-- The rest of a text after a character. -/
def after? (c : Char) : List Char → Option (List Char)
  | x :: rest => if x = c then some rest else none
  | [] => none

/-- A space or a tab. -/
def isTimestampSpace (c : Char) : Bool := c = ' ' || c = '\t'

/-- The offset at the end of a timestamp. -/
def writtenOffset? (text : List Char) : Option (Option Int) :=
  match text with
  | [] => some none
  | _ =>
    match text.dropWhile isTimestampSpace with
    | ['Z'] => some (some 0)
    | sign :: rest =>
      if sign = '+' ∨ sign = '-' then do
        let (hours, rest) ← shortDigits? rest
        let (minutes, rest) ← match rest with
          | ':' :: rest => fixedDigits? 2 rest
          | rest => some (0, rest)
        let seconds : Int := hours * 3600 + minutes * 60
        if rest = [] then some (some (if sign = '-' then -seconds else seconds)) else none
      else none
    | [] => none

/-- The time of a timestamp. -/
def writtenTime? (text : List Char) : Option WrittenTime := do
  let (hour, rest) ← shortDigits? text
  let (minute, rest) ← fixedDigits? 2 (← after? ':' rest)
  let (second, rest) ← fixedDigits? 2 (← after? ':' rest)
  let (fraction, rest) := match rest with
    | '.' :: rest => rest.span isAsciiDigit
    | rest => ([], rest)
  some ⟨hour, minute, second, fraction, ← writtenOffset? rest⟩

/-- The numbers of a timestamp. -/
def writtenTimestamp? (text : List Char) : Option WrittenTimestamp := do
  let (year, rest) ← fixedDigits? 4 text
  let afterYear ← after? '-' rest
  let (month, rest) ← shortDigits? afterYear
  let afterMonth ← after? '-' rest
  let (day, rest) ← shortDigits? afterMonth
  match rest with
  | [] => some ⟨year, month, day, text.length = 10, none⟩
  | c :: clock =>
    if c = 'T' ∨ c = 't' then some ⟨year, month, day, true, some (← writtenTime? clock)⟩
    else if isTimestampSpace c then
      some ⟨year, month, day, true, some (← writtenTime? (clock.dropWhile isTimestampSpace))⟩
    else none

/-- The microseconds of a fraction, rounded at its seventh digit. They may come to a second. -/
def fractionMicroseconds (fraction : List Char) : Nat :=
  let kept := fraction.take 6
  let whole := ofAsciiDigits (kept ++ List.replicate (6 - kept.length) '0')
  let isUp := (fraction[6]?).any fun c => 4 < asciiDigitValue c
  if isUp then whole + 1 else whole

/-- The moment one second later. -/
def secondLater (t : DateTime) : Except CalendarFault DateTime :=
  let next := t.time.microseconds + 1000000
  let date := if next < microsecondsPerDay then some t.date else Date.ofOrdinal? (t.date.ordinal + 1)
  match date with
  | some date => .ok ⟨date, DateTime.timeAfterMidnight (next % microsecondsPerDay), t.offset⟩
  | none => .error .outOfRange

/-- The date or the moment of a timestamp. -/
def WrittenTimestamp.value (w : WrittenTimestamp) : Except CalendarFault Value :=
  match w.time with
  | none => (Date.make w.year w.month w.day).map .date
  | some clock => do
    let offset ← match clock.offset with
      | none => .ok none
      | some seconds => (Offset.make seconds).map some
    let date ← Date.make w.year w.month w.day
    let microseconds := fractionMicroseconds clock.fraction
    let time ← TimeOfDay.make clock.hour clock.minute clock.second microseconds
    let moment : DateTime := ⟨date, time, offset⟩
    if microseconds < 1000000 then .ok (.moment moment)
    else (secondLater moment).map .moment

end GeoMetadata.Yaml
