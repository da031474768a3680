import GeoMetadata.Proofs.Text.Padded
import GeoMetadata.Proofs.Text.Pieces
import GeoMetadata.Proofs.Time.Instant
import GeoMetadata.Time.Iso8601
import Mathlib.Data.List.TakeDrop

/-!
# Stamps, read back and compared

A stamp spells the numbers of a date and time in fields of fixed width (`toList_stampText`).  From
this come its form (`stampText_answers`), that stamps are in the order of the numbers and so of the
instants (`stampText_le_stampText`), and that it is read back, field by field, as the date and time
without the microseconds that make up no millisecond (`read_stampText`).
-/

namespace GeoMetadata.Time

open Text

/-! ## The fields -/

/-- The fields of a stamp: the width of each number and the mark after it. -/
def stampFields : List (Nat × Char) :=
  [(4, '-'), (2, '-'), (2, 'T'), (2, ':'), (2, ':'), (2, '.'), (3, 'Z')]

theorem toList_stampText (t : DateTime) :
    (stampText t).toList = spell stampFields t.numbers := by
  rw [stampText, String.toList_ofList]
  simp only [List.append_assoc, List.cons_append]
  rfl

theorem fit_numbers (t : DateTime) : Fit stampFields t.numbers := by
  obtain ⟨-, hyear⟩ := t.date.one_le_year
  obtain ⟨-, hmonth, hday⟩ := t.date.one_le_month
  obtain ⟨hhour, hminute, hsecond, hmicrosecond⟩ := t.time.bounds
  unfold lastYear at hyear
  simp only [Fit, stampFields, DateTime.numbers, List.forall₂_cons, List.forall₂_nil_right_iff,
    and_true, Nat.pow_eq]
  omega

/-- The text of a stamp has twenty-four characters, digits and marks in their places. -/
theorem stampText_answers (t : DateTime) :
    Answers "0000-00-00T00:00:00.000Z".toList (stampText t).toList := by
  rw [toList_stampText]
  exact answers_spell (by decide) (fit_numbers t)

theorem TimeOfDay.isTime_toMillisecond (t : TimeOfDay) :
    isTime t.hour t.minute t.second (t.microsecond / 1000 * 1000) = true := by
  obtain ⟨hhour, hminute, hsecond, hmicrosecond⟩ := t.bounds
  simp only [isTime, Bool.and_eq_true, decide_eq_true_eq]
  omega

/-- The date and time without the microseconds that make up no millisecond. -/
def DateTime.toMillisecond (t : DateTime) : DateTime :=
  { t with
    time := ⟨t.time.hour, t.time.minute, t.time.second, t.time.microsecond / 1000 * 1000,
      t.time.isTime_toMillisecond⟩ }

theorem DateTime.instant_toMillisecond {t : DateTime} (h : t.offset = some .utc) :
    t.toMillisecond.instant = t.instant / 1000 * 1000 := by
  have htime : t.toMillisecond.time.microseconds = t.time.microseconds / 1000 * 1000 := by
    simp only [toMillisecond, TimeOfDay.microseconds]
    omega
  rw [instant_utc h, instant_utc (show t.toMillisecond.offset = some .utc from h), htime,
    show t.toMillisecond.date = t.date from rfl]
  unfold microsecondsPerDay secondsPerDay
  omega

/-- Stamps of dates and times in UTC are in the order of the instants. -/
theorem stampText_le_stampText {t u : DateTime} (ht : t.offset = some .utc)
    (hu : u.offset = some .utc) (hle : t.instant ≤ u.instant) : stampText t ≤ stampText u := by
  rw [← String.not_lt]
  intro hless
  -- The numbers of neither come first: those of `u` by the instants, those of `t` by the texts.
  have htexts : spell stampFields u.numbers < spell stampFields t.numbers := by
    rw [← toList_stampText, ← toList_stampText]
    exact hless
  have hback : ¬u.numbers < t.numbers :=
    fun hlt => absurd hle (Int.not_le.mpr (DateTime.instant_lt_of_numbers_lt hu ht hlt))
  have hforth : ¬t.numbers < u.numbers :=
    fun hlt => List.lt_asymm htexts (spell_lt_spell (fit_numbers t) (fit_numbers u) hlt)
  have hsame : t.numbers = u.numbers :=
    List.lex_trichotomous (fun n m hnm hmn => Nat.le_antisymm (Nat.not_lt.mp hmn) (Nat.not_lt.mp hnm))
      hback hforth
  rw [hsame] at htexts
  exact List.lt_irrefl _ htexts

end GeoMetadata.Time

namespace GeoMetadata.Time.Iso8601

open Text

/-! ## Reading the fields -/

section Fields

variable {width n : Nat}

theorem number?_padded (hwidth : 0 < width) (hn : n < Nat.pow 10 width) (rest : List Char) :
    number? width (padded width n ++ rest) = some (n, rest) := by
  have hlength := length_padded hwidth hn
  have hdigits : (padded width n).all isAsciiDigit = true :=
    List.all_eq_true.mpr fun c hc => isAsciiDigit_of_mem_padded hc
  simp only [number?]
  rw [List.take_left' hlength, List.drop_left' hlength, if_pos ⟨hlength, hdigits⟩,
    ofAsciiDigits_padded hwidth hn]

theorem startsOffset_of_isAsciiDigit {c : Char} (hc : isAsciiDigit c = true) :
    startsOffset c = false := by
  rw [startsOffset]
  have hne : ∀ d : Char, isAsciiDigit d = false → c ≠ d := by
    rintro d hd rfl
    rw [hc] at hd
    cases hd
  simp [hne '-' rfl, hne '+' rfl, hne 'Z' rfl, hne 'z' rfl]

/-- A number does not begin an offset. -/
theorem endOr_padded (hwidth : 0 < width) (hn : n < Nat.pow 10 width) (rest : List Char)
    (numbers : TimeNumbers) (go : List Char → Option TimeNumbers) :
    endOr numbers (padded width n ++ rest) go = go (padded width n ++ rest) := by
  cases htext : padded width n with
  | nil =>
      have hlength := length_padded hwidth hn
      rw [htext] at hlength
      exact absurd hlength (Nat.ne_of_lt hwidth)
  | cons c digits =>
      have hc : isAsciiDigit c = true :=
        isAsciiDigit_of_mem_padded (htext ▸ List.mem_cons_self : c ∈ padded width n)
      rw [List.cons_append, endOr, startsOffset_of_isAsciiDigit hc]
      rfl

theorem span_padded {c : Char} (hc : isAsciiDigit c = false)
    (rest : List Char) :
    (padded width n ++ c :: rest).span isAsciiDigit = (padded width n, c :: rest) := by
  have hdigits : ∀ d ∈ padded width n, isAsciiDigit d = true :=
    fun d hd => isAsciiDigit_of_mem_padded hd
  rw [List.span_eq_takeWhile_dropWhile, takeWhile_append_cons hdigits hc,
    dropWhile_append_cons hdigits hc]

end Fields

/-! ## Reading a stamp -/

theorem day_of_fields {year month monthDay : Nat} (hyear : year < Nat.pow 10 4)
    (hmonth : month < Nat.pow 10 2) (hday : monthDay < Nat.pow 10 2) (rest : List Char) :
    day (padded 4 year ++ '-' :: (padded 2 month ++ '-' :: (padded 2 monthDay ++ rest))) =
      .ok (⟨year, month, monthDay⟩, rest) := by
  have hcalendar : calendarDay? (padded 4 year ++ '-' :: (padded 2 month ++ '-' ::
      (padded 2 monthDay ++ rest))) = some (⟨year, month, monthDay⟩, rest) := by
    simp only [calendarDay?, number?_padded (by decide) hyear, number?_padded (by decide) hmonth,
      number?_padded (by decide) hday, Option.bind_eq_bind, Option.bind_some]
  rw [day, hcalendar]

theorem microsecondsOf_padded {n : Nat} (hn : n < Nat.pow 10 3) :
    microsecondsOf (padded 3 n) = n * 1000 := by
  have hlength := length_padded (by decide) hn
  have htake : (padded 3 n).take 6 = padded 3 n := List.take_of_length_le (by omega)
  simp only [microsecondsOf]
  rw [htake, hlength, ofAsciiDigits_padded (by decide) hn]

theorem fraction?_of_field (numbers : TimeNumbers) {n : Nat} (hn : n < Nat.pow 10 3) :
    fraction? numbers ('.' :: (padded 3 n ++ ['Z'])) =
      some { numbers with microsecond := n * 1000, offset := some 0 } := by
  have hdigits : padded 3 n ≠ [] := by
    intro hnil
    have hlength := length_padded (by decide) hn
    rw [hnil] at hlength
    cases hlength
  simp only [fraction?, endOr]
  rw [if_neg (by decide), span_padded (by decide), if_pos ⟨.inl trivial, hdigits⟩,
    microsecondsOf_padded hn]
  rfl

theorem time?_of_fields {hour minute second millisecond : Nat} (hhour : hour < Nat.pow 10 2)
    (hminute : minute < Nat.pow 10 2) (hsecond : second < Nat.pow 10 2)
    (hmillisecond : millisecond < Nat.pow 10 3) :
    time? (padded 2 hour ++ ':' :: (padded 2 minute ++ ':' :: (padded 2 second ++ '.' ::
      (padded 3 millisecond ++ ['Z'])))) =
        some ⟨hour, minute, second, millisecond * 1000, some 0⟩ := by
  have hlength : ¬(padded 2 hour ++ ':' :: (padded 2 minute ++ ':' :: (padded 2 second ++ '.' ::
      (padded 3 millisecond ++ ['Z'])))).length < 2 := by
    rw [List.length_append, length_padded (by decide) hhour]
    omega
  have hcolon (numbers : TimeNumbers) (rest : List Char) (go : List Char → Option TimeNumbers) :
      endOr numbers (':' :: rest) go = go (':' :: rest) := rfl
  rw [time?, if_neg hlength, endOr_padded (by decide) hhour]
  simp only [number?_padded (by decide) hhour, number?_padded (by decide) hminute,
    number?_padded (by decide) hsecond, Option.bind_eq_bind, Option.bind_some, hcolon]
  rw [fraction?_of_field _ hmillisecond]

theorem assemble_numbers {t : DateTime} (h : t.offset = some .utc) :
    assemble (numbersOf t.date)
        ⟨t.time.hour, t.time.minute, t.time.second, t.time.microsecond / 1000 * 1000, some 0⟩ =
      .ok t.toMillisecond := by
  have hhour : t.time.hour ≠ 24 := Nat.ne_of_lt t.time.bounds.1
  have hdate : Date.make t.date.year t.date.month t.date.day = .ok t.date := by
    rw [Date.make, dif_pos t.date.valid]
  have htime : TimeOfDay.make t.time.hour t.time.minute t.time.second
      (t.time.microsecond / 1000 * 1000) = .ok t.toMillisecond.time := by
    have hmod : t.time.microsecond / 1000 * 1000 % 1000000 = t.time.microsecond / 1000 * 1000 := by
      have hbounds := t.time.bounds
      omega
    simp only [TimeOfDay.make, hmod]
    exact dif_pos t.toMillisecond.time.valid
  have hread : t.toMillisecond = ⟨t.date, t.toMillisecond.time, some .utc⟩ := by
    rw [← h]
    rfl
  rw [hread]
  simp only [assemble, numbersOf, hhour, if_false, false_and, hdate, htime]
  rfl

/-- A stamp is read as the date and time that it was made from, down to the millisecond. -/
theorem read_stampText {t : DateTime} (h : t.offset = some .utc) :
    read (stampText t) = .ok t.toMillisecond := by
  have hascii : (stampText t).toList.any (fun c => decide (0x80 ≤ c.toNat)) = false := by
    have hcodes := (stampText_answers t).ascii (List.forall_iff_forall_mem.mp (by decide))
    simpa using hcodes
  -- Each field is as wide as its number, and is read back as that number.
  have hfit := fit_numbers t
  simp only [Fit, stampFields, DateTime.numbers, List.forall₂_cons] at hfit
  obtain ⟨⟨-, hyear⟩, ⟨-, hmonth⟩, ⟨-, hday⟩, ⟨-, hhour⟩, ⟨-, hminute⟩, ⟨-, hsecond⟩,
    ⟨-, hmillisecond⟩, -⟩ := hfit
  simp only [read, hascii]
  rw [toList_stampText]
  simp only [spell, stampFields, DateTime.numbers]
  rw [day_of_fields hyear hmonth hday, if_neg (by decide)]
  simp only [bind, Except.bind, time?_of_fields hhour hminute hsecond hmillisecond]
  exact assemble_numbers h

end GeoMetadata.Time.Iso8601
