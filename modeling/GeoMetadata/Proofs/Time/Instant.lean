import GeoMetadata.Proofs.Time.Calendar
import Mathlib.Algebra.Order.Floor.Semiring
import Mathlib.Data.Nat.Init

/-!
# Instants and the numbers of a date and time

The number of a day goes with the lexicographic order of year, month and day
(`ordinal_lt_of_year_lt`, `ordinal_lt_of_month_lt`): a whole year lies between the first days of two
years, and a whole month between those of two months.  A time of day is less than a day, so that the
instants of dates and times in UTC are in the order of their numbers as well
(`instant_lt_of_numbers_lt`).

The date and time that `DateTime.ofInstant?` finds is in UTC and has the instant that was asked for
(`instant_of_ofInstant?`).  The instants in the calendar are those that some date and time in UTC
has (`inCalendar_iff`).
-/

namespace GeoMetadata.Time

/-! ## Years and months -/

theorem daysBeforeYear_succ {year : Nat} (hyear : 1 ≤ year) :
    daysBeforeYear (year + 1) = daysBeforeYear year + daysInYear year := by
  obtain ⟨past, rfl⟩ := Nat.exists_eq_add_of_le' hyear
  have hsmall : past / 100 ≤ 365 * past := by omega
  simp only [daysBeforeYear, daysInYear, isLeap, Nat.add_sub_cancel, Bool.and_eq_true,
    Bool.or_eq_true, decide_eq_true_eq, Nat.succ_div, Nat.dvd_iff_mod_eq_zero]
  split_ifs <;> omega

theorem daysBeforeYear_le {year other : Nat} (hyear : 1 ≤ year) (hle : year ≤ other) :
    daysBeforeYear year ≤ daysBeforeYear other := by
  induction other, hle using Nat.le_induction with
  | base => exact Nat.le_refl _
  | succ other hle ih =>
      rw [daysBeforeYear_succ (Nat.le_trans hyear hle)]
      exact Nat.le_add_right_of_le ih

theorem totalDays_take_succ (lengths : List Nat) (k : Nat) :
    totalDays (lengths.take (k + 1)) = totalDays (lengths.take k) + (lengths[k]?).getD 0 := by
  induction lengths generalizing k with
  | nil => simp
  | cons length rest ih =>
      cases k with
      | zero => simp
      | succ k =>
          rw [List.take_succ_cons, totalDays_cons, ih, List.take_succ_cons, totalDays_cons,
            List.getElem?_cons_succ, Nat.add_assoc]

theorem daysBeforeMonth_succ {year month : Nat} (hmonth : 1 ≤ month) :
    daysBeforeMonth year (month + 1) = daysBeforeMonth year month + daysInMonth year month := by
  obtain ⟨k, rfl⟩ := Nat.exists_eq_add_of_le' hmonth
  rw [daysBeforeMonth, daysBeforeMonth, daysInMonth, List.getElem?_cons_succ, Nat.add_sub_cancel,
    Nat.add_sub_cancel, totalDays_take_succ]

theorem daysBeforeMonth_le {year month other : Nat} (hmonth : 1 ≤ month) (hle : month ≤ other) :
    daysBeforeMonth year month ≤ daysBeforeMonth year other := by
  induction other, hle using Nat.le_induction with
  | base => exact Nat.le_refl _
  | succ other hle ih =>
      rw [daysBeforeMonth_succ (Nat.le_trans hmonth hle)]
      exact Nat.le_add_right_of_le ih

/-! ## Days -/

namespace Date

variable {d e : Date}

theorem one_le_year (d : Date) : 1 ≤ d.year ∧ d.year ≤ lastYear := by
  have hvalid := d.valid
  simp only [isDay, Bool.and_eq_true, decide_eq_true_eq] at hvalid
  exact hvalid.1.1

theorem one_le_day (d : Date) : 1 ≤ d.day ∧ d.day ≤ daysInMonth d.year d.month := by
  have hvalid := d.valid
  simp only [isDay, Bool.and_eq_true, decide_eq_true_eq] at hvalid
  exact ⟨hvalid.1.2, hvalid.2⟩

theorem daysInMonth_bounds {year month : Nat} (h : 1 ≤ daysInMonth year month) :
    1 ≤ month ∧ month ≤ 12 ∧ daysInMonth year month ≤ 31 := by
  have hlength : (monthLengths year).length = 12 := rfl
  cases month with
  | zero => cases h
  | succ k =>
      rw [daysInMonth, List.getElem?_cons_succ] at h ⊢
      refine ⟨Nat.le_add_left 1 k, ?_⟩
      cases hk : (monthLengths year)[k]? with
      | none =>
          rw [hk] at h
          cases h
      | some length =>
          have hshort : ∀ n ∈ monthLengths year, n ≤ 31 := by
            unfold monthLengths
            split <;> decide
          exact ⟨hlength ▸ (List.getElem?_eq_some_iff.mp hk).1,
            hshort length (List.mem_of_getElem? hk)⟩

theorem one_le_month (d : Date) : 1 ≤ d.month ∧ d.month ≤ 12 ∧ d.day ≤ 31 := by
  obtain ⟨hone, hday⟩ := one_le_day d
  obtain ⟨hmonth, hlast, hlength⟩ := daysInMonth_bounds (Nat.le_trans hone hday)
  exact ⟨hmonth, hlast, Nat.le_trans hday hlength⟩

/-- A day comes before the first day of the next month. -/
theorem ordinal_le (d : Date) :
    d.ordinal ≤ daysBeforeYear d.year + daysBeforeMonth d.year (d.month + 1) := by
  rw [ordinal, daysBeforeMonth_succ (one_le_month d).1, Nat.add_assoc]
  exact Nat.add_le_add_left (Nat.add_le_add_left (one_le_day d).2 _) _

theorem ordinal_lt_of_month_lt (hyear : d.year = e.year) (hmonth : d.month < e.month) :
    d.ordinal < e.ordinal :=
  calc d.ordinal
      ≤ daysBeforeYear d.year + daysBeforeMonth d.year (d.month + 1) := ordinal_le d
    _ ≤ daysBeforeYear e.year + daysBeforeMonth e.year e.month := by
        rw [hyear]
        exact Nat.add_le_add_left (daysBeforeMonth_le (Nat.le_add_left 1 _) hmonth) _
    _ < e.ordinal := Nat.lt_add_of_pos_right (one_le_day e).1

/-- A day comes before the first day of the next year. -/
theorem ordinal_le_of_year_lt {year : Nat} (hyear : d.year < year) :
    d.ordinal ≤ daysBeforeYear year := by
  have hmonths : daysBeforeMonth d.year (d.month + 1) ≤ daysInYear d.year :=
    calc daysBeforeMonth d.year (d.month + 1)
        ≤ daysBeforeMonth d.year 13 :=
          daysBeforeMonth_le (Nat.le_add_left 1 _) (Nat.succ_le_succ (one_le_month d).2.1)
      _ = daysInYear d.year := totalDays_monthLengths d.year
  calc d.ordinal
      ≤ daysBeforeYear d.year + daysBeforeMonth d.year (d.month + 1) := ordinal_le d
    _ ≤ daysBeforeYear d.year + daysInYear d.year := Nat.add_le_add_left hmonths _
    _ = daysBeforeYear (d.year + 1) := (daysBeforeYear_succ (one_le_year d).1).symm
    _ ≤ daysBeforeYear year := daysBeforeYear_le (Nat.le_add_left 1 _) hyear

theorem ordinal_lt_of_year_lt (hyear : d.year < e.year) : d.ordinal < e.ordinal :=
  calc d.ordinal
      ≤ daysBeforeYear e.year := ordinal_le_of_year_lt hyear
    _ ≤ daysBeforeYear e.year + daysBeforeMonth e.year e.month := Nat.le_add_right _ _
    _ < e.ordinal := Nat.lt_add_of_pos_right (one_le_day e).1

theorem ordinal_le_calendarDays (d : Date) : d.ordinal ≤ calendarDays := by
  have hlast : d.ordinal ≤ daysBeforeYear (lastYear + 1) :=
    ordinal_le_of_year_lt (Nat.lt_succ_of_le (one_le_year d).2)
  exact hlast

/-- The day with a number has that number. -/
theorem ordinal_of_ofOrdinal? {n : Int} (h : ofOrdinal? n = some d) : (d.ordinal : Int) = n := by
  have hpositive : ¬n ≤ 0 := fun hle => by simp [ofOrdinal?, hle] at h
  rw [ofOrdinal?, if_neg hpositive] at h
  dsimp only at h
  split at h
  · have hpast := snd_yearFrom_lt (n.toNat - 1)
    have hyear := daysBeforeYear_yearFrom (n.toNat - 1)
    rw [← totalDays_monthLengths] at hpast
    obtain ⟨k, -, hmonth, hdays, -⟩ := monthFrom_spec 1 hpast
    generalize yearFrom (n.toNat - 1) = found at *
    generalize monthFrom 1 (monthLengths found.1) found.2 = place at *
    obtain ⟨month, day⟩ := place
    obtain rfl : month = 1 + k := hmonth
    obtain rfl := Option.some.inj h
    rw [ordinal, daysBeforeMonth, Nat.add_sub_cancel_left]
    dsimp only
    omega
  · cases h

end Date

/-! ## Times of day -/

namespace TimeOfDay

theorem bounds (t : TimeOfDay) :
    t.hour < 24 ∧ t.minute < 60 ∧ t.second < 60 ∧ t.microsecond < 1000000 := by
  have hvalid := t.valid
  simp only [isTime, Bool.and_eq_true, decide_eq_true_eq] at hvalid
  exact ⟨hvalid.1.1.1, hvalid.1.1.2, hvalid.1.2, hvalid.2⟩

theorem microseconds_lt (t : TimeOfDay) : t.microseconds < microsecondsPerDay := by
  have hbounds := t.bounds
  unfold microseconds microsecondsPerDay secondsPerDay
  omega

end TimeOfDay

theorem microseconds_timeAfterMidnight {n : Nat} (hn : n < microsecondsPerDay) :
    (DateTime.timeAfterMidnight n).microseconds = n := by
  unfold microsecondsPerDay secondsPerDay at hn
  simp only [DateTime.timeAfterMidnight, TimeOfDay.microseconds, secondsPerDay]
  omega

/-! ## Dates and times in UTC -/

namespace DateTime

variable {t u : DateTime}

theorem instant_utc (h : t.offset = some .utc) :
    t.instant = ((t.date.ordinal : Int) - 1) * microsecondsPerDay + t.time.microseconds := by
  rw [instant, h]
  exact Int.sub_zero _

theorem instant_of_ofInstant? {i : Int} (h : ofInstant? i = some t) :
    t.offset = some .utc ∧ t.instant = i := by
  obtain ⟨date, hdate, rfl⟩ := Option.map_eq_some_iff.mp h
  have hday : (microsecondsPerDay : Int) ≠ 0 := by decide
  have hpart : (i % microsecondsPerDay).toNat < microsecondsPerDay := by
    have hlow := Int.emod_nonneg i hday
    have hhigh := Int.emod_lt_of_pos i (show (0 : Int) < microsecondsPerDay by decide)
    omega
  refine ⟨rfl, ?_⟩
  rw [instant_utc rfl, Date.ordinal_of_ofOrdinal? hdate, microseconds_timeAfterMidnight hpart,
    Int.toNat_of_nonneg (Int.emod_nonneg i hday), Int.add_sub_cancel, Int.mul_comm]
  exact Int.mul_ediv_add_emod i microsecondsPerDay

/-- The instants in the calendar are those of the dates and times in UTC. -/
theorem inCalendar_iff :
    t.InCalendar ↔ ∃ u : DateTime, u.offset = some .utc ∧ u.instant = t.instant := by
  constructor
  · intro h
    rw [← isSome_stamp?_iff, stamp?, Option.isSome_map] at h
    obtain ⟨u, hu⟩ := Option.isSome_iff_exists.mp h
    exact ⟨u, instant_of_ofInstant? hu⟩
  · rintro ⟨u, hutc, hinstant⟩
    have hlast := u.date.ordinal_le_calendarDays
    have hfirst : 1 ≤ u.date.ordinal := Nat.le_add_left_of_le u.date.one_le_day.1
    have htime := u.time.microseconds_lt
    rw [InCalendar, ← hinstant, instant_utc hutc]
    unfold calendarDays microsecondsPerDay secondsPerDay at *
    omega

/-- The numbers of a date and time down to the millisecond. -/
def numbers (t : DateTime) : List Nat :=
  [t.date.year, t.date.month, t.date.day, t.time.hour, t.time.minute, t.time.second,
    t.time.microsecond / 1000]

theorem instant_lt_of_ordinal_lt (ht : t.offset = some .utc) (hu : u.offset = some .utc)
    (hlt : t.date.ordinal < u.date.ordinal) : t.instant < u.instant := by
  have htime := t.time.microseconds_lt
  rw [instant_utc ht, instant_utc hu]
  unfold microsecondsPerDay secondsPerDay at *
  omega

/-- In UTC the instants are in the order of the numbers. -/
theorem instant_lt_of_numbers_lt (ht : t.offset = some .utc) (hu : u.offset = some .utc)
    (hlt : t.numbers < u.numbers) : t.instant < u.instant := by
  simp only [numbers, List.cons_lt_cons_iff, List.not_lt_nil, and_false, or_false] at hlt
  rcases hlt with hyear | ⟨hyear, hmonth | ⟨hmonth, hday | ⟨hday, htime⟩⟩⟩
  · exact instant_lt_of_ordinal_lt ht hu (Date.ordinal_lt_of_year_lt hyear)
  · exact instant_lt_of_ordinal_lt ht hu (Date.ordinal_lt_of_month_lt hyear hmonth)
  · refine instant_lt_of_ordinal_lt ht hu ?_
    rw [Date.ordinal, Date.ordinal, hyear, hmonth]
    exact Nat.add_lt_add_left hday _
  · have hsame : t.date.ordinal = u.date.ordinal := by
      rw [Date.ordinal, Date.ordinal, hyear, hmonth, hday]
    have hmicroseconds : t.time.microseconds < u.time.microseconds := by
      have hbounds := t.time.bounds
      have hbounds' := u.time.bounds
      unfold TimeOfDay.microseconds
      omega
    rw [instant_utc ht, instant_utc hu, hsame]
    omega

end DateTime

end GeoMetadata.Time
