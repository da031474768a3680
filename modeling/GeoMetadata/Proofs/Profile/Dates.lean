import GeoMetadata.Profile.Derivation
import GeoMetadata.Proofs.Time.Stamp

/-!
# Date texts

A date text is the stamp of an instant, cut to the millisecond.  It is made from the instant alone,
so that a date without an offset has the text of the same date in UTC, and two dates at one instant
have one text; later instants have later texts.  An instant that no date in UTC has, which is one
outside the years 1 to 9999, has no text.
-/

namespace GeoMetadata.Profile

open Time Text

/-- The text is a stamp of the instant: it has the form of one, and is read as a date and time in
UTC, which is the last whole millisecond that has begun at the instant. -/
def IsStampOf (text : String) (instant : Int) : Prop :=
  text.length = 24 ∧ Answers "0000-00-00T00:00:00.000Z".toList text.toList ∧
    ∃ u, Iso8601.read text = .ok u ∧ u.offset = some .utc ∧ u.instant = instant / 1000 * 1000

variable {t u : DateTime} {text : String}

theorem isStampOf_stampText (h : t.offset = some .utc) : IsStampOf (stampText t) t.instant := by
  have hform := stampText_answers t
  refine ⟨?_, hform, t.toMillisecond, Iso8601.read_stampText h, h, t.instant_toMillisecond h⟩
  rw [← String.length_toList, ← hform.length_eq]
  rfl

/-- A date text is the stamp of the date and time in UTC at the same instant. -/
theorem dateText_eq_ok_iff : dateText t = .ok text ↔
    ∃ u : DateTime, DateTime.ofInstant? t.instant = some u ∧ stampText u = text := by
  rw [dateText, stamp?]
  cases DateTime.ofInstant? t.instant <;> simp

/-- A date has a text exactly if its instant is in the years of the calendar; otherwise it is out of
range.  The text is the stamp of the instant, equal instants have equal texts, and earlier ones
earlier texts. -/
theorem dateText_is_stamp (t : DateTime) :
    ((∃ text, dateText t = .ok text) ↔
      ∃ u : DateTime, u.offset = some .utc ∧ u.instant = t.instant) ∧
    (dateText t = .error .dateOutOfRange ↔
      ¬∃ u : DateTime, u.offset = some .utc ∧ u.instant = t.instant) ∧
    (∀ text, dateText t = .ok text → IsStampOf text t.instant) ∧
    (∀ u : DateTime, u.instant = t.instant → dateText u = dateText t) ∧
    ∀ (u : DateTime) (text later : String), dateText t = .ok text → dateText u = .ok later →
      t.instant ≤ u.instant → text ≤ later := by
  rw [← DateTime.inCalendar_iff, ← isSome_stamp?_iff]
  refine ⟨?_, ?_, ?_, ?_, ?_⟩
  · rw [dateText]
    cases stamp? t <;> simp
  · rw [dateText]
    cases stamp? t <;> simp
  · intro text h
    obtain ⟨u, hu, rfl⟩ := dateText_eq_ok_iff.mp h
    obtain ⟨hutc, hinstant⟩ := DateTime.instant_of_ofInstant? hu
    exact hinstant ▸ isStampOf_stampText hutc
  · intro u hinstant
    rw [dateText, dateText, stamp?, stamp?, hinstant]
  · intro u text later htext hlater hle
    obtain ⟨v, hv, rfl⟩ := dateText_eq_ok_iff.mp htext
    obtain ⟨w, hw, rfl⟩ := dateText_eq_ok_iff.mp hlater
    obtain ⟨hvutc, hvinstant⟩ := DateTime.instant_of_ofInstant? hv
    obtain ⟨hwutc, hwinstant⟩ := DateTime.instant_of_ofInstant? hw
    exact stampText_le_stampText hvutc hwutc (by rwa [hvinstant, hwinstant])

-- Late on the last day of a leap year, two hours west of UTC.
example : dateText ⟨⟨2024, 12, 31, rfl⟩, ⟨23, 15, 0, 999, rfl⟩, some ⟨-7200, by decide⟩⟩ =
    .ok "2025-01-01T01:15:00.000Z" := by
  rfl

end GeoMetadata.Profile
