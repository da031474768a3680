/-!
# Rounding a quotient

`roundDiv` is the integer nearest to a quotient of naturals, and a half goes to the even
neighbour.  All rounding of the library goes through it.
-/

namespace GeoMetadata.Number

/-- The integer nearest to `num / den`; a half goes to the even neighbour. -/
def roundDiv (num den : Nat) : Nat :=
  let q := num / den
  let r := num % den
  if 2 * r < den then q
  else if den < 2 * r then q + 1
  else if q % 2 = 0 then q else q + 1

theorem roundDiv_le (num den : Nat) : num / den ≤ roundDiv num den := by
  unfold roundDiv
  simp only
  split
  · exact Nat.le_refl _
  · split
    · exact Nat.le_succ _
    · split
      · exact Nat.le_refl _
      · exact Nat.le_succ _

theorem roundDiv_le_succ (num den : Nat) : roundDiv num den ≤ num / den + 1 := by
  unfold roundDiv
  simp only
  split
  · exact Nat.le_succ _
  · split
    · exact Nat.le_refl _
    · split
      · exact Nat.le_succ _
      · exact Nat.le_refl _

/-- The number of decimal digits of `n`; zero has one. -/
def decimalLength (n : Nat) : Nat := (Nat.toDigits 10 n).length

/-- `x · 2 ^ e` as a quotient of naturals. -/
def scaleTwo (x : Nat) (e : Int) : Nat × Nat :=
  if 0 ≤ e then (x * Nat.pow 2 e.toNat, 1) else (x, Nat.pow 2 (-e).toNat)

/-- `x · 10 ^ e` as a quotient of naturals. -/
def scaleTen (x : Nat) (e : Int) : Nat × Nat :=
  if 0 ≤ e then (x * Nat.pow 10 e.toNat, 1) else (x, Nat.pow 10 (-e).toNat)

end GeoMetadata.Number
