import GeoMetadata.Number.Binary64

/-!
# The integers that have a floating-point number

An integer is rounded to 53 bits.  The bits end at the exponent `log2 n - 52` (`exponentFor_one`),
and the rounded mantissa is below `2 ^ 53` or is `2 ^ 53` itself, in which case the exponent grows
by one (`roundedExponent`).  So the result is finite exactly if that exponent is not above the
greatest one, and this fails from the midpoint between the largest number and `2 ^ 1024` on
(`isSome_ofInt?_iff`).
-/

namespace GeoMetadata.Number

/-- The least magnitude of an integer that is rounded beyond the largest number. -/
def overflowMagnitude : Nat := Nat.pow 2 1024 - Nat.pow 2 970

/-! ## Rounding up to a power of two -/

/-- A quotient by an even number is rounded up to `q + 1` from the middle on, if `q` is odd. -/
theorem succ_le_roundDiv_iff {num half q : Nat} (hhalf : 0 < half) (hodd : q % 2 = 1)
    (hlt : num < 2 * half * (q + 1)) :
    q + 1 ≤ roundDiv num (2 * half) ↔ 2 * half * q + half ≤ num := by
  have hmod := Nat.div_add_mod num (2 * half)
  have hrest := Nat.mod_lt num (show 0 < 2 * half by omega)
  have hquot : num / (2 * half) < q + 1 := Nat.div_lt_of_lt_mul hlt
  rcases Nat.lt_or_ge (num / (2 * half)) q with hbelow | hreached
  · have hmul : 2 * half * (num / (2 * half) + 1) ≤ 2 * half * q := Nat.mul_le_mul_left _ hbelow
    rw [Nat.mul_succ] at hmul
    have hround : roundDiv num (2 * half) ≤ num / (2 * half) + 1 := roundDiv_le_succ _ _
    omega
  · have hq : num / (2 * half) = q := by omega
    rw [hq] at hmod
    unfold roundDiv
    simp only [hq, if_neg (show ¬ q % 2 = 0 by omega)]
    split
    · omega
    · split <;> omega

/-! ## The mantissa and exponent of an integer -/

namespace Binary64

/-- The last bit of a positive integer's mantissa is worth `2 ^ (log2 n - 52)`. -/
theorem exponentFor_one {n : Nat} (hn : n ≠ 0) : exponentFor n 1 = (n.log2 : Int) - 52 := by
  have hlog : Nat.log2 1 = 0 := rfl
  have hle : 2 ^ n.log2 ≤ n := Nat.log2_self_le hn
  unfold exponentFor
  simp only [hlog, Int.natCast_zero, Int.sub_zero, Nat.pow_eq]
  have hnot : ¬ n * (scaleTwo 1 ((n.log2 : Int) - 52)).2 <
      (scaleTwo 1 ((n.log2 : Int) - 52)).1 * 2 ^ 52 := by
    unfold scaleTwo
    rw [Nat.not_lt]
    split
    · rename_i hbig
      simp only [Nat.pow_eq, Nat.one_mul, Nat.mul_one, ← Nat.pow_add]
      have hexp : ((n.log2 : Int) - 52).toNat + 52 = n.log2 := by omega
      rw [hexp]
      exact hle
    · rename_i hsmall
      simp only [Nat.pow_eq, Nat.one_mul]
      have hexp : 52 = n.log2 + (-((n.log2 : Int) - 52)).toNat := by omega
      calc 2 ^ 52 = 2 ^ n.log2 * 2 ^ (-((n.log2 : Int) - 52)).toNat := by
            rw [← Nat.pow_add, ← hexp]
        _ ≤ n * 2 ^ (-((n.log2 : Int) - 52)).toNat := Nat.mul_le_mul_right _ hle
  rw [if_neg hnot]
  unfold leastExponent
  omega

/-- The exponent of an integer once its mantissa is rounded to 53 bits. -/
def roundedExponent (n : Nat) : Int :=
  if roundDiv (n * (scaleTwo 1 ((n.log2 : Int) - 52)).2) (scaleTwo 1 ((n.log2 : Int) - 52)).1 =
      Nat.pow 2 53
  then (n.log2 : Int) - 52 + 1 else (n.log2 : Int) - 52

/-- With 1024 bits the exponent grows from the greatest one on exactly if the mantissa is
rounded up to `2 ^ 53`, which starts in the middle of the last two. -/
theorem roundedExponent_of_log2_eq {n : Nat} (hlog : n.log2 = 1023) :
    greatestExponent < roundedExponent n ↔ overflowMagnitude ≤ n := by
  have hlt : n < 2 ^ 1024 := by
    have := Nat.lt_log2_self (n := n)
    rwa [hlog] at this
  have hscale : scaleTwo 1 ((n.log2 : Int) - 52) = (2 * 2 ^ 970, 1) := by
    have hexp : ((n.log2 : Int) - 52).toNat = 970 + 1 := by omega
    rw [scaleTwo, if_pos (by omega), hexp, Nat.pow_eq, Nat.pow_succ, Nat.one_mul, Nat.mul_comm]
  have hpow : (2 : Nat) ^ 1024 = 2 ^ 54 * 2 ^ 970 := by rw [← Nat.pow_add]
  have hhalf : 0 < 2 ^ 970 := Nat.two_pow_pos 970
  rw [roundedExponent, hscale, hlog, overflowMagnitude, Nat.pow_eq, Nat.pow_eq, Nat.pow_eq]
  rw [hpow] at hlt ⊢
  -- The powers are kept as they are: only their ratio matters, and they are too long to compute.
  generalize 2 ^ 970 = half at *
  have hbelow : n < 2 * half * (2 ^ 53 - 1 + 1) := by omega
  have hround := succ_le_roundDiv_iff hhalf (by decide) hbelow
  have hquot : n / (2 * half) < 2 ^ 53 := Nat.div_lt_of_lt_mul hbelow
  have hmost : roundDiv n (2 * half) ≤ n / (2 * half) + 1 := roundDiv_le_succ _ _
  have hmiddle : 2 * half * (2 ^ 53 - 1) + half = 2 ^ 54 * half - half := by omega
  rw [hmiddle] at hround
  rw [← hround, greatestExponent]
  simp only [Nat.mul_one]
  split <;> omega

/-- The exponent grows beyond the greatest exactly from the middle between the largest number
and `2 ^ 1024` on. -/
theorem greatestExponent_lt_roundedExponent_iff {n : Nat} (hn : n ≠ 0) :
    greatestExponent < roundedExponent n ↔ overflowMagnitude ≤ n := by
  have hself : 2 ^ n.log2 ≤ n := Nat.log2_self_le hn
  have hlt : n < 2 ^ (n.log2 + 1) := Nat.lt_log2_self
  rcases Nat.lt_trichotomy n.log2 1023 with hsmall | htop | hbig
  · have hpow : 2 ^ (n.log2 + 1) ≤ 2 ^ 1023 := Nat.pow_le_pow_right (by decide) hsmall
    have hdouble : (2 : Nat) ^ 1024 = 2 ^ 1023 + 2 ^ 1023 := by rw [← Nat.two_mul, ← Nat.pow_succ']
    have hfar : (2 : Nat) ^ 970 < 2 ^ 1023 := Nat.pow_lt_pow_right (by decide) (by decide)
    have hbelow : ¬ overflowMagnitude ≤ n := by
      rw [overflowMagnitude, Nat.pow_eq, Nat.pow_eq, hdouble]
      generalize (2 : Nat) ^ 1023 = top at *
      generalize (2 : Nat) ^ 970 = half at *
      omega
    have hexponent : ¬ greatestExponent < roundedExponent n := by
      unfold roundedExponent greatestExponent
      split <;> omega
    exact iff_of_false hexponent hbelow
  · exact roundedExponent_of_log2_eq htop
  · have hpow : 2 ^ 1024 ≤ 2 ^ n.log2 := Nat.pow_le_pow_right (by decide) hbig
    have habove : overflowMagnitude ≤ n := by
      unfold overflowMagnitude
      exact Nat.le_trans (Nat.sub_le _ _) (Nat.le_trans hpow hself)
    have hexponent : greatestExponent < roundedExponent n := by
      unfold roundedExponent greatestExponent
      split <;> omega
    exact iff_of_true hexponent habove

theorem ofRatio_one (negative : Bool) {n : Nat} (hn : n ≠ 0) :
    ∃ mantissa, ofRatio negative n 1 =
      if greatestExponent < roundedExponent n then .infinite negative
      else .finite negative mantissa (roundedExponent n) := by
  unfold ofRatio
  rw [if_neg hn, exponentFor_one hn]
  exact ⟨_, rfl⟩

/-- An integer has a floating-point number exactly if it is below the midpoint between the
largest number and `2 ^ 1024`. -/
theorem isSome_ofInt?_iff {n : Int} :
    (ofInt? n).isSome = true ↔ n.natAbs < overflowMagnitude := by
  unfold ofInt?
  by_cases hzero : n.natAbs = 0
  · have hpositive : 0 < overflowMagnitude :=
      Nat.sub_pos_of_lt (Nat.pow_lt_pow_right (by decide) (by decide))
    simp [hzero, ofRatio, zero, hpositive]
  · obtain ⟨mantissa, hratio⟩ := ofRatio_one (decide (n < 0)) hzero
    rw [hratio, ← Nat.not_le, ← greatestExponent_lt_roundedExponent_iff hzero]
    by_cases hover : greatestExponent < roundedExponent n.natAbs
    · simp [hover]
    · simp [hover]

end Binary64

end GeoMetadata.Number
