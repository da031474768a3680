import GeoMetadata.Time.Calendar
import GeoMetadata.Text.Digits

/-!
# Time stamps in UTC

A stamp is the instant of a date and time in UTC, truncated to the millisecond, in the form
`2001-02-03T04:05:06.789Z`.  An instant outside the years of the calendar has none.
-/

namespace GeoMetadata.Time

open Text

/-- The stamp of a date and time that is in UTC. -/
def stampText (t : DateTime) : String :=
  String.ofList
    (padded 4 t.date.year ++ '-' :: padded 2 t.date.month ++ '-' :: padded 2 t.date.day
      ++ 'T' :: padded 2 t.time.hour ++ ':' :: padded 2 t.time.minute
      ++ ':' :: padded 2 t.time.second ++ '.' :: padded 3 (t.time.microsecond / 1000) ++ ['Z'])

/-- The stamp of a date and time, if its instant has one. -/
def stamp? (t : DateTime) : Option String := (DateTime.ofInstant? t.instant).map stampText

end GeoMetadata.Time
