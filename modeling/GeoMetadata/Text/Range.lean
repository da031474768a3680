/-!
# Character classes given by ranges

A character property is stored as the list of its maximal code point ranges, in
increasing order.  Membership is membership of some range.
-/

namespace GeoMetadata.Text

/-- A closed range of code points. -/
abbrev CodeRange := Nat × Nat

/-- `c` lies in one of the ranges. -/
def inRanges (ranges : List CodeRange) (c : Char) : Bool :=
  ranges.any fun r => r.1 ≤ c.toNat && c.toNat ≤ r.2

theorem inRanges_iff {ranges : List CodeRange} {c : Char} :
    inRanges ranges c = true ↔ ∃ r ∈ ranges, r.1 ≤ c.toNat ∧ c.toNat ≤ r.2 := by
  simp [inRanges]

theorem inRanges_of_le {first second : List CodeRange} {c : Char}
    (hranges : ∀ r ∈ first, ∃ s ∈ second, s.1 ≤ r.1 ∧ r.2 ≤ s.2) (hc : inRanges first c = true) :
    inRanges second c = true := by
  rw [inRanges_iff] at hc ⊢
  obtain ⟨r, hr, hlow, hhigh⟩ := hc
  obtain ⟨s, hs, hleft, hright⟩ := hranges r hr
  exact ⟨s, hs, Nat.le_trans hleft hlow, Nat.le_trans hhigh hright⟩

end GeoMetadata.Text
