import GeoMetadata.Proofs.Number.Order
import Mathlib.Algebra.Order.Ring.Abs
import Mathlib.Tactic.Linarith

/-!
# Numbers in canonical form

A finite number can be written with several mantissas and exponents, but only one of these is in
canonical form: the mantissa has 53 bits unless the exponent is the least.  The numbers that
rounding gives are canonical (`isCanonical_ofRatio`), since the exponent is chosen such that 53 bits
are left of the quotient (`exponentFor_bounds`).  Canonical numbers at the same point of the line
are one number, or the two zeros (`eq_or_zeros_of_point_eq`).
-/

namespace GeoMetadata.Number.Binary64

variable {x y : Binary64} {num den : Nat}

/-- The number is in canonical form: its mantissa has 53 bits, or fewer if its exponent is the
least. -/
def IsCanonical : Binary64 → Prop
  | .finite _ mantissa exponent => mantissa < Nat.pow 2 53 ∧ leastExponent ≤ exponent ∧
      exponent ≤ greatestExponent ∧ (exponent = leastExponent ∨ Nat.pow 2 52 ≤ mantissa)
  | .infinite _ => True
  | .nan => True

instance (x : Binary64) : Decidable x.IsCanonical :=
  match x with
  | .finite .. => inferInstanceAs (Decidable (_ ∧ _))
  | .infinite _ => isTrue trivial
  | .nan => isTrue trivial

/-! ## Rounding -/

theorem cast_scaleTwo (den : Nat) (e : Int) :
    ((scaleTwo den e).1 : ℚ) = den * 2 ^ e * (scaleTwo den e).2 := by
  unfold scaleTwo
  split
  · rename_i hpositive
    obtain ⟨k, rfl⟩ := Int.eq_ofNat_of_zero_le hpositive
    simp
  · rename_i hnegative
    obtain ⟨k, hk⟩ := Int.eq_ofNat_of_zero_le (show 0 ≤ -e by omega)
    have he : e = -(k : Int) := by omega
    subst he
    simp

theorem scaleTwo_snd_pos (den : Nat) (e : Int) : 0 < (scaleTwo den e).2 := by
  unfold scaleTwo
  split
  · exact Nat.one_pos
  · exact Nat.two_pow_pos _

/-- A quotient that is brought to an exponent is below a power of two if it was below it before. -/
theorem mul_scaleTwo_lt_iff {e : Int} {k : Nat} :
    num * (scaleTwo den e).2 < (scaleTwo den e).1 * 2 ^ k ↔ (num : ℚ) < den * 2 ^ (e + k) := by
  have hpos : (0 : ℚ) < (scaleTwo den e).2 := Nat.cast_pos.mpr (scaleTwo_snd_pos den e)
  calc num * (scaleTwo den e).2 < (scaleTwo den e).1 * 2 ^ k
      ↔ (num : ℚ) * (scaleTwo den e).2 < den * 2 ^ (e + k) * (scaleTwo den e).2 := by
        rw [← @Nat.cast_lt ℚ, zpow_add₀ (by norm_num), zpow_natCast]
        push_cast
        rw [cast_scaleTwo]
        ring_nf
    _ ↔ (num : ℚ) < den * 2 ^ (e + k) := mul_lt_mul_iff_left₀ hpos

/-- Two numbers are known by their bits up to a factor of two, and so their quotient is up to two of
these. -/
theorem quotient_bounds (hnum : num ≠ 0) (hden : den ≠ 0) {e : Int}
    (he : e = (num.log2 : Int) - den.log2) :
    (num : ℚ) < den * 2 ^ (e + 1) ∧ (den : ℚ) * 2 ^ (e - 1) ≤ num := by
  have hadd (a b : Int) : (2 : ℚ) ^ (a + b) = 2 ^ a * 2 ^ b := zpow_add₀ (by norm_num) a b
  constructor
  · calc (num : ℚ) < 2 ^ ((num.log2 : Int) + 1) := by
          exact_mod_cast Nat.lt_log2_self (n := num)
      _ = 2 ^ (den.log2 : Int) * 2 ^ (e + 1) := by
          rw [← hadd]
          congr 1
          omega
      _ ≤ den * 2 ^ (e + 1) := by
          gcongr
          exact_mod_cast Nat.log2_self_le hden
  · calc (den : ℚ) * 2 ^ (e - 1) ≤ 2 ^ ((den.log2 : Int) + 1) * 2 ^ (e - 1) := by
          gcongr
          exact_mod_cast (Nat.lt_log2_self (n := den)).le
      _ = 2 ^ (num.log2 : Int) := by
          rw [← hadd]
          congr 1
          omega
      _ ≤ num := by
          exact_mod_cast Nat.log2_self_le hnum

/-- The exponent for a quotient leaves at most 53 bits of it, and not fewer unless it is the least.
-/
theorem exponentFor_bounds (hnum : num ≠ 0) (hden : den ≠ 0) :
    leastExponent ≤ exponentFor num den ∧ (num : ℚ) < den * 2 ^ (exponentFor num den + 53) ∧
      (exponentFor num den = leastExponent ∨
        (den : ℚ) * 2 ^ (exponentFor num den + 52) ≤ num) := by
  obtain ⟨e, he⟩ : ∃ e : Int, e = (num.log2 : Int) - den.log2 - 52 := ⟨_, rfl⟩
  obtain ⟨hhigh, hlow⟩ := quotient_bounds hnum hden (show e + 52 = _ by omega)
  rw [show e + 52 + 1 = e + 53 by omega] at hhigh
  rw [show e + 52 - 1 = e + 51 by omega] at hlow
  obtain ⟨chosen, hchosen, hbelow, habove⟩ : ∃ chosen : Int,
      exponentFor num den = max leastExponent chosen ∧
        (num : ℚ) < den * 2 ^ (chosen + 53) ∧ (den : ℚ) * 2 ^ (chosen + 52) ≤ num := by
    unfold exponentFor
    simp only [← he, Nat.pow_eq, mul_scaleTwo_lt_iff, Nat.cast_ofNat]
    split
    · rename_i hfew
      refine ⟨e - 1, rfl, ?_, ?_⟩
      · rwa [show e - 1 + 53 = e + 52 by omega]
      · rwa [show e - 1 + 52 = e + 51 by omega]
    · rename_i hmany
      exact ⟨e, rfl, hhigh, not_lt.mp hmany⟩
  rw [hchosen]
  refine ⟨le_max_left _ _, hbelow.trans_le ?_, ?_⟩
  · gcongr
    · norm_num
    · exact le_max_right _ _
  · rcases le_total chosen leastExponent with hle | hle
    · exact .inl (max_eq_left hle)
    · rw [max_eq_right hle]
      exact .inr habove

/-- A quotient below `2 ^ 53` is rounded to at most that, and one from `2 ^ 52` on to at least that.
-/
theorem roundDiv_bounds (hhigh : num < den * 2 ^ 53) :
    roundDiv num den ≤ 2 ^ 53 ∧ (den * 2 ^ 52 ≤ num → 2 ^ 52 ≤ roundDiv num den) := by
  have hpos : 0 < den := Nat.pos_of_mul_pos_right (Nat.zero_lt_of_lt hhigh)
  constructor
  · exact (roundDiv_le_succ num den).trans (Nat.div_lt_of_lt_mul hhigh)
  · intro hlow
    rw [Nat.mul_comm] at hlow
    exact ((Nat.le_div_iff_mul_le hpos).mpr hlow).trans (roundDiv_le num den)

/-- Rounding gives numbers in canonical form. -/
theorem isCanonical_ofRatio (negative : Bool) (hden : den ≠ 0) :
    (ofRatio negative num den).IsCanonical := by
  unfold ofRatio
  split
  · cases negative <;> decide
  · rename_i hnum
    obtain ⟨hleast, hhigh, hlow⟩ := exponentFor_bounds hnum hden
    generalize exponentFor num den = e at hleast hhigh hlow
    rw [show (53 : Int) = (53 : Nat) from rfl, ← mul_scaleTwo_lt_iff] at hhigh
    rw [show (52 : Int) = (52 : Nat) from rfl, ← not_lt, ← mul_scaleTwo_lt_iff, not_lt] at hlow
    obtain ⟨hmost, hfull⟩ := roundDiv_bounds hhigh
    simp only [Nat.pow_eq]
    generalize roundDiv _ _ = m at hmost hfull ⊢
    by_cases hgrows : m = 2 ^ 53
    · rw [if_pos hgrows, if_pos hgrows]
      split
      · trivial
      · rename_i hgreatest
        exact ⟨by decide, by omega, not_lt.mp hgreatest, .inr le_rfl⟩
    · rw [if_neg hgrows, if_neg hgrows]
      split
      · trivial
      · rename_i hgreatest
        exact ⟨lt_of_le_of_ne hmost hgrows, hleast, not_lt.mp hgreatest, hlow.imp_right hfull⟩

theorem isCanonical_of_ofInt? {n : Int} (h : ofInt? n = some x) : x.IsCanonical := by
  have hratio := @isCanonical_ofRatio n.natAbs 1 (decide (n < 0)) one_ne_zero
  unfold ofInt? at h
  split at h
  · rename_i hfinite
    rw [hfinite] at hratio
    exact Option.some.inj h ▸ hratio
  · cases h

/-! ## Numbers at one point -/

theorem signed_inj {s t : Bool} {m n : Nat} (h : signed s m = signed t n) :
    m = n ∧ (s = t ∨ m = 0) := by
  unfold signed at h
  cases s <;> cases t <;> simp at h ⊢ <;> omega

/-- Canonical mantissas that are as large once they are brought to one exponent had it before. -/
theorem exponent_le_of_signed_eq {s t : Bool} {m n : Nat} {e f : Int}
    (hx : IsCanonical (.finite s m e)) (hy : IsCanonical (.finite t n f))
    (h : (signed s m * 2 ^ e : ℚ) = signed t n * 2 ^ f) : f ≤ e := by
  by_contra! hlt
  obtain ⟨hm, hleast, -⟩ := hx
  obtain ⟨-, -, -, hn⟩ := hy
  rw [← signedAt_mul_zpow hlt.le] at h
  have hinj := mul_right_cancel₀ (zpow_pos (by norm_num : (0 : ℚ) < 2) e).ne' h
  obtain ⟨hsame, -⟩ := signed_inj (Int.cast_injective hinj)
  have hfull : Nat.pow 2 52 ≤ n := hn.resolve_left (by omega)
  have hgap : 2 ^ 1 ≤ Nat.pow 2 (f - e).toNat := Nat.pow_le_pow_right (by decide) (by omega)
  have hdouble := Nat.mul_le_mul hfull hgap
  rw [← hsame] at hdouble
  exact absurd hm (not_lt.mpr hdouble)

/-- Canonical numbers at one point of the line are one number, or both are zero. -/
theorem eq_or_zeros_of_same (hx : x.IsCanonical) (hy : y.IsCanonical) (h : x.same y = true) :
    x = y ∨ (∃ s, x = zero s) ∧ ∃ t, y = zero t := by
  obtain ⟨hxnan, hynan, hpoint⟩ := same_iff.mp h
  rcases x with ⟨s, m, e⟩ | s | _
  · rcases y with ⟨t, n, f⟩ | t | _
    · have hvalues : (signed s m * 2 ^ e : ℚ) = signed t n * 2 ^ f :=
        WithTop.coe_injective (WithBot.coe_injective hpoint)
      have hexponent : e = f :=
        le_antisymm (exponent_le_of_signed_eq hy hx hvalues.symm)
          (exponent_le_of_signed_eq hx hy hvalues)
      subst hexponent
      have hinj := mul_right_cancel₀ (zpow_pos (by norm_num : (0 : ℚ) < 2) e).ne' hvalues
      obtain ⟨rfl, hsign⟩ := signed_inj (Int.cast_injective hinj)
      rcases hsign with rfl | rfl
      · exact .inl rfl
      · -- A zero has the least exponent.
        have hzero : e = leastExponent := hx.2.2.2.resolve_right (by decide)
        subst hzero
        exact .inr ⟨⟨s, rfl⟩, ⟨t, rfl⟩⟩
    · cases t <;> cases hpoint
    · exact absurd rfl hynan
  · rcases y with ⟨t, n, f⟩ | t | _
    · cases s <;> cases hpoint
    · cases s <;> cases t <;> first | exact .inl rfl | cases hpoint
    · exact absurd rfl hynan
  · exact absurd rfl hxnan

/-- Canonical numbers at one point of the line are one number if they are not zeros of both signs.
-/
theorem eq_of_same (hx : x.IsCanonical) (hy : y.IsCanonical) (h : x.same y = true)
    (hzeros : ∀ s t, x = zero s → y = zero t → s = t) : x = y := by
  rcases eq_or_zeros_of_same hx hy h with rfl | ⟨⟨s, hs⟩, ⟨t, ht⟩⟩
  · rfl
  · rw [hs, ht, hzeros s t hs ht]

end GeoMetadata.Number.Binary64
