import GeoMetadata.Time.Stamp

/-!
# Days by their number

`Date.ofOrdinal?` finds the day with a number in two steps: the year (`yearFrom`) and, within
it, the month (`monthFrom`).  Each step splits the number of days that have passed into the days
before the year or month and the days in it:

* `daysBeforeYear_yearFrom`, `snd_yearFrom_lt`: the days before the year and those in it add
  up, and fewer days have passed in the year than the year has;
* `monthFrom_spec`: the same for the months of a year, by induction on their lengths.

So every number from 1 to that of the last day has a day, and no other number has one
(`isSome_ofOrdinal?_iff`).  An instant has a stamp exactly if it is in the calendar
(`isSome_stamp?_iff`).
-/

namespace GeoMetadata.Time

/-- The number of days in the calendar, which is the number of its last day. -/
def calendarDays : Nat := 3652059

/-- The instant of a date and time is in the years of the calendar, once it is put in UTC. -/
def DateTime.InCalendar (t : DateTime) : Prop :=
  0 ≤ t.instant ∧ t.instant < calendarDays * microsecondsPerDay

instance (t : DateTime) : Decidable t.InCalendar := by
  unfold DateTime.InCalendar
  infer_instance

/-! ## The year -/

/-- The number of days of a year. -/
def daysInYear (year : Nat) : Nat := if isLeap year then 366 else 365

theorem totalDays_monthLengths (year : Nat) : totalDays (monthLengths year) = daysInYear year := by
  unfold monthLengths daysInYear
  split <;> rfl

/-- The year in centuries, leap cycles and single years, and the days that have passed since
they began. The fourth century and the fourth single year are a day longer than the others. -/
theorem yearFrom_parts (past : Nat) :
    ∃ a c q s, Date.yearFrom past = (400 * a + 100 * c + 4 * q + s + 1,
        past - (146097 * a + 36524 * c + 1461 * q + 365 * s)) ∧
      146097 * a + 36524 * c + 1461 * q + 365 * s ≤ past ∧
      past < 146097 * a + 36524 * c + 1461 * q + 365 * s + 366 ∧ c ≤ 3 ∧ q ≤ 24 ∧ s ≤ 3 ∧
      (past = 146097 * a + 36524 * c + 1461 * q + 365 * s + 365 → s = 3 ∧ (q = 24 → c = 3)) := by
  refine ⟨past / 146097, min (past % 146097 / 36524) 3,
    (past % 146097 - min (past % 146097 / 36524) 3 * 36524) / 1461,
    min ((past % 146097 - min (past % 146097 / 36524) 3 * 36524) % 1461 / 365) 3, ?_⟩
  rw [Date.yearFrom]
  simp only [Prod.mk.injEq]
  omega

/-- The days before a year that is given in centuries, leap cycles and single years. -/
theorem daysBeforeYear_parts {a c q s : Nat} (hc : c ≤ 3) (hq : q ≤ 24) (hs : s ≤ 3) :
    daysBeforeYear (400 * a + 100 * c + 4 * q + s + 1) =
      146097 * a + 36524 * c + 1461 * q + 365 * s := by
  have hfour : (400 * a + 100 * c + 4 * q + s) / 4 = 100 * a + 25 * c + q := by omega
  have hhundred : (400 * a + 100 * c + 4 * q + s) / 100 = 4 * a + c := by omega
  have hcycle : (400 * a + 100 * c + 4 * q + s) / 400 = a := by omega
  simp only [daysBeforeYear, Nat.add_sub_cancel, hfour, hhundred, hcycle]
  omega

theorem daysBeforeYear_yearFrom (past : Nat) :
    daysBeforeYear (Date.yearFrom past).1 + (Date.yearFrom past).2 = past := by
  obtain ⟨a, c, q, s, hyear, hle, -, hc, hq, hs, -⟩ := yearFrom_parts past
  rw [hyear, daysBeforeYear_parts hc hq hs]
  omega

theorem one_le_fst_yearFrom (past : Nat) : 1 ≤ (Date.yearFrom past).1 := by
  obtain ⟨a, c, q, s, hyear, -⟩ := yearFrom_parts past
  simp [hyear]

/-- Fewer days have passed in the year than it has. -/
theorem snd_yearFrom_lt (past : Nat) :
    (Date.yearFrom past).2 < daysInYear (Date.yearFrom past).1 := by
  obtain ⟨a, c, q, s, hyear, hle, hlt, hc, hq, hs, hlast⟩ := yearFrom_parts past
  rw [hyear, daysInYear]
  by_cases hleap : isLeap (400 * a + 100 * c + 4 * q + s + 1) = true
  · rw [if_pos hleap]
    omega
  · rw [if_neg hleap]
    simp only [isLeap, Bool.and_eq_true, Bool.or_eq_true, decide_eq_true_eq] at hleap
    -- With 365 days passed the year is the fourth of its cycle, and it ends no century but a fourth
    -- one, so that it is a leap year after all.
    refine Nat.not_le.mp fun hlong => ?_
    obtain ⟨rfl, hcentury⟩ := hlast (by omega)
    refine hleap ⟨by omega, ?_⟩
    by_cases hcycle : q = 24
    · right
      obtain rfl := hcentury hcycle
      omega
    · left
      omega

theorem fst_yearFrom_le {past : Nat} (h : past < calendarDays) :
    (Date.yearFrom past).1 ≤ lastYear := by
  obtain ⟨a, c, q, s, hyear, hle, hlt, hc, hq, hs, hlast⟩ := yearFrom_parts past
  simp only [calendarDays] at h
  simp only [hyear, lastYear]
  omega

theorem lastYear_lt_fst_yearFrom {past : Nat} (h : calendarDays ≤ past) :
    lastYear < (Date.yearFrom past).1 := by
  obtain ⟨a, c, q, s, hyear, hle, hlt, hc, hq, hs, hlast⟩ := yearFrom_parts past
  simp only [calendarDays] at h
  simp only [hyear, lastYear]
  omega

/-! ## The month -/

/-- The month and the day that `monthFrom` finds: the days before the month and the day add
up, and the month has that day. -/
theorem monthFrom_spec (month : Nat) {past : Nat} {lengths : List Nat} (h : past < totalDays lengths) :
    ∃ k, ∃ hk : k < lengths.length, (Date.monthFrom month lengths past).1 = month + k ∧
      totalDays (lengths.take k) + (Date.monthFrom month lengths past).2 = past + 1 ∧
      1 ≤ (Date.monthFrom month lengths past).2 ∧
      (Date.monthFrom month lengths past).2 ≤ lengths[k] := by
  induction lengths generalizing month past with
  | nil => simp at h
  | cons length rest ih =>
      rw [totalDays_cons] at h
      by_cases hpast : past < length
      · refine ⟨0, by simp, ?_⟩
        simp only [Date.monthFrom, if_pos hpast]
        simp
        omega
      · obtain ⟨k, hk, hmonth, hsum, hone, hle⟩ :=
          ih (month + 1) (show past - length < totalDays rest by omega)
        refine ⟨k + 1, by simpa using hk, ?_⟩
        simp only [Date.monthFrom, if_neg hpast, List.take_succ_cons, totalDays_cons,
          List.getElem_cons_succ]
        omega

/-- The month and the day that a number of days in a year gives are a day of the year. -/
theorem isDay_monthFrom {year past : Nat} (hone : 1 ≤ year) (hlast : year ≤ lastYear)
    (hpast : past < daysInYear year) :
    isDay year (Date.monthFrom 1 (monthLengths year) past).1
      (Date.monthFrom 1 (monthLengths year) past).2 = true := by
  rw [← totalDays_monthLengths] at hpast
  obtain ⟨k, hk, hmonth, -, hday, hle⟩ := monthFrom_spec 1 hpast
  have hlength : daysInMonth year (Date.monthFrom 1 (monthLengths year) past).1 =
      (monthLengths year)[k] := by
    rw [hmonth, Nat.add_comm, daysInMonth, List.getElem?_cons_succ, List.getElem?_eq_getElem hk,
      Option.getD_some]
  simp only [isDay, Bool.and_eq_true, decide_eq_true_eq, hlength]
  exact ⟨⟨⟨hone, hlast⟩, hday⟩, hle⟩

/-! ## The day with a number -/

theorem isSome_ofOrdinal?_of_le {n : Int} (hone : 1 ≤ n) (hlast : n ≤ calendarDays) :
    (Date.ofOrdinal? n).isSome = true := by
  have hpast : n.toNat - 1 < calendarDays := by omega
  have hday := isDay_monthFrom (one_le_fst_yearFrom (n.toNat - 1)) (fst_yearFrom_le hpast)
    (snd_yearFrom_lt (n.toNat - 1))
  rw [Date.ofOrdinal?, if_neg (by omega)]
  simp only [dif_pos hday, Option.isSome_some]

/-- The numbers of days are those from 1 to the number of days in the calendar. -/
theorem isSome_ofOrdinal?_iff {n : Int} :
    (Date.ofOrdinal? n).isSome = true ↔ 1 ≤ n ∧ n ≤ calendarDays := by
  refine ⟨fun h => ?_, fun h => isSome_ofOrdinal?_of_le h.1 h.2⟩
  rw [Date.ofOrdinal?] at h
  by_cases hpositive : n ≤ 0
  · simp [if_pos hpositive] at h
  refine ⟨by omega, Int.not_lt.mp fun hlate => ?_⟩
  have hyear : lastYear < (Date.yearFrom (n.toNat - 1)).1 := lastYear_lt_fst_yearFrom (by omega)
  rw [if_neg hpositive] at h
  simp only [isDay, Nat.not_le.mpr hyear] at h
  simp at h

/-! ## Stamps -/

theorem isSome_stamp?_iff {t : DateTime} : (stamp? t).isSome = true ↔ t.InCalendar := by
  have hday : (0 : Int) < microsecondsPerDay := by decide
  rw [stamp?, Option.isSome_map, DateTime.ofInstant?, Option.isSome_map, isSome_ofOrdinal?_iff,
    DateTime.InCalendar]
  have hlow : 1 ≤ t.instant / (microsecondsPerDay : Int) + 1 ↔ 0 ≤ t.instant := by
    rw [← Int.ediv_nonneg_iff_of_pos hday]
    omega
  have hhigh : t.instant / (microsecondsPerDay : Int) + 1 ≤ (calendarDays : Int) ↔
      t.instant < calendarDays * microsecondsPerDay := by
    rw [← Int.ediv_lt_iff_lt_mul hday]
    omega
  rw [hlow, hhigh]

end GeoMetadata.Time
