import GeoMetadata.Number.Binary64
import Mathlib.Algebra.Order.Field.Power
import Mathlib.Algebra.Order.Ring.Rat
import Mathlib.Order.WithBot
import Mathlib.Tactic.NormNum
import Mathlib.Tactic.Ring

/-!
# The order of floating-point numbers

A number other than NaN is a point of the line, or one of its two ends (`point`).  Numbers are
compared as their points are (`lt_iff`), and NaN is not comparable to anything (`le_iff`).  So on
numbers without NaN the comparison is a total preorder, in which the two zeros are equal.

The least and the greatest of a list are found by going through it and keeping the best so far
(`best`).  Without NaN the result is one of the numbers and on the right side of all of them
(`least?_eq_some`, `greatest?_eq_some`).  NaN takes no part in this (`least?_filter`,
`greatest?_filter`) unless it comes first, in which case nothing takes its place (`least?_eq_head`,
`greatest?_eq_head`).
-/

namespace GeoMetadata.Number.Binary64

variable {x y : Binary64} {xs : List Binary64}

/-! ## Points of the line -/

/-- Where a number stands on the line with its two ends. NaN, which stands nowhere, is given the
lower end. -/
def point : Binary64 → WithBot (WithTop ℚ)
  | .finite negative mantissa exponent => ((signed negative mantissa * 2 ^ exponent : ℚ) : WithTop ℚ)
  | .infinite true => ⊥
  | .infinite false => (⊤ : WithTop ℚ)
  | .nan => ⊥

/-- A mantissa brought to a lower exponent. -/
theorem signedAt_mul_zpow {negative : Bool} {mantissa : Nat} {exponent base : Int}
    (hbase : base ≤ exponent) :
    (signedAt negative mantissa exponent base : ℚ) * 2 ^ base =
      signed negative mantissa * 2 ^ exponent := by
  have hexponent : (2 : ℚ) ^ exponent = 2 ^ (exponent - base).toNat * 2 ^ base := by
    rw [← zpow_natCast, ← zpow_add₀ (by norm_num), Int.toNat_of_nonneg (by omega)]
    congr 1
    omega
  rw [hexponent, signedAt, Nat.pow_eq]
  unfold signed
  split <;> push_cast <;> ring

theorem lt_finite (s t : Bool) (m n : Nat) (e f : Int) :
    lt (.finite s m e) (.finite t n f) =
      decide (signedAt s m e (min e f) < signedAt t n f (min e f)) := rfl

/-- Numbers are compared as their points are. -/
theorem lt_iff (hx : x ≠ .nan) (hy : y ≠ .nan) : x.lt y = true ↔ x.point < y.point := by
  rcases x with ⟨s, m, e⟩ | s | _
  · rcases y with ⟨t, n, f⟩ | t | _
    · have hpos : (0 : ℚ) < 2 ^ min e f := zpow_pos (by norm_num) _
      rw [lt_finite, decide_eq_true_iff, point, point, WithBot.coe_lt_coe, WithTop.coe_lt_coe,
        ← signedAt_mul_zpow (min_le_left e f), ← signedAt_mul_zpow (min_le_right e f),
        mul_lt_mul_iff_left₀ hpos, Int.cast_lt]
    · cases t with
      | true => exact iff_of_false Bool.false_ne_true not_lt_bot
      | false => exact iff_of_true rfl (WithBot.coe_lt_coe.mpr (WithTop.coe_lt_top _))
    · exact absurd rfl hy
  · rcases y with ⟨t, n, f⟩ | t | _
    · cases s with
      | true => exact iff_of_true rfl (WithBot.bot_lt_coe _)
      | false =>
          refine iff_of_false Bool.false_ne_true (not_lt_of_gt ?_)
          exact WithBot.coe_lt_coe.mpr (WithTop.coe_lt_top _)
    · cases s with
      | true =>
          cases t with
          | true => exact iff_of_false Bool.false_ne_true not_lt_bot
          | false => exact iff_of_true rfl (WithBot.bot_lt_coe _)
      | false =>
          cases t with
          | true => exact iff_of_false Bool.false_ne_true not_lt_bot
          | false => exact iff_of_false Bool.false_ne_true (lt_irrefl _)
    · exact absurd rfl hy
  · exact absurd rfl hx

@[simp] theorem nan_lt (x : Binary64) : lt .nan x = false := rfl

@[simp] theorem lt_nan (x : Binary64) : x.lt .nan = false := by cases x <;> rfl

/-- A number is at most another if it is below it or the same point. -/
instance : LE Binary64 := ⟨fun x y => x.lt y = true ∨ x.same y = true⟩

theorem same_iff : x.same y = true ↔ x ≠ .nan ∧ y ≠ .nan ∧ x.point = y.point := by
  by_cases hx : x = .nan
  · subst hx
    simp [same]
  · by_cases hy : y = .nan
    · subst hy
      cases x <;> simp [same]
    · have hsame : x.same y = (!x.lt y && !y.lt x) := by cases x <;> cases y <;> trivial
      rw [hsame, Bool.and_eq_true, Bool.not_eq_true', Bool.not_eq_true', ← Bool.not_eq_true,
        ← Bool.not_eq_true, lt_iff hx hy, lt_iff hy hx, not_lt, not_lt]
      simp only [ne_eq, hx, hy, not_false_eq_true, true_and]
      exact ⟨fun h => le_antisymm h.2 h.1, fun h => ⟨h.ge, h.le⟩⟩

/-- A number is at most another as far as their points are, and NaN is not comparable. -/
theorem le_iff : x ≤ y ↔ x ≠ .nan ∧ y ≠ .nan ∧ x.point ≤ y.point := by
  show x.lt y = true ∨ x.same y = true ↔ _
  rw [same_iff]
  by_cases hx : x = .nan
  · subst hx
    simp
  · by_cases hy : y = .nan
    · subst hy
      simp
    · rw [lt_iff hx hy, le_iff_lt_or_eq]
      simp [hx, hy]

theorem same_of_le_of_le (h : x ≤ y) (h' : y ≤ x) : x.same y = true := by
  obtain ⟨hx, hy, hle⟩ := le_iff.mp h
  obtain ⟨-, -, hge⟩ := le_iff.mp h'
  exact same_iff.mpr ⟨hx, hy, le_antisymm hle hge⟩

theorem not_lt_of_le (h : x ≤ y) : y.lt x = false := by
  obtain ⟨hx, hy, hle⟩ := le_iff.mp h
  rw [← Bool.not_eq_true, lt_iff hy hx]
  exact hle.not_gt

theorem point_zero (negative : Bool) : (zero negative).point = ((0 : ℚ) : WithTop ℚ) := by
  have hvalue : (signed negative 0 * 2 ^ leastExponent : ℚ) = 0 := by
    cases negative <;> simp [signed]
  rw [zero, point, hvalue]

/-- The zeros are equal, so that their signs do not matter. -/
theorem zero_le_iff {s t : Bool} : zero s ≤ x ↔ zero t ≤ x := by
  rw [le_iff, le_iff, point_zero, point_zero]
  exact and_congr_left' (iff_of_true nofun nofun)

theorem le_zero_iff {s t : Bool} : x ≤ zero s ↔ x ≤ zero t := by
  rw [le_iff, le_iff, point_zero, point_zero]
  exact and_congr_right' (and_congr_left' (iff_of_true nofun nofun))

/-! ## The best of a list -/

/-- The best of a list that starts with a number, as found from the left: another one takes its
place only if it beats it. -/
def best (beats : Binary64 → Binary64 → Bool) (x : Binary64) (xs : List Binary64) : Binary64 :=
  xs.foldl (fun found y => if beats y found then y else found) x

section Best

variable {beats : Binary64 → Binary64 → Bool}

theorem best_cons (x y : Binary64) (xs : List Binary64) :
    best beats x (y :: xs) = best beats (if beats y x then y else x) xs := rfl

theorem best_mem (beats : Binary64 → Binary64 → Bool) (x : Binary64) (xs : List Binary64) :
    best beats x xs ∈ x :: xs := by
  induction xs generalizing x with
  | nil => exact List.mem_singleton_self x
  | cons y rest ih =>
      rw [best_cons]
      split
      · exact List.mem_cons_of_mem _ (ih y)
      · rcases List.mem_cons.mp (ih x) with hx | hrest
        · rw [hx]
          exact List.mem_cons_self
        · exact List.mem_cons_of_mem _ (List.mem_cons_of_mem _ hrest)

/-- If a number beats another by having a lower rank, then none has a lower rank than the best. -/
theorem rank_best_le {β : Type} [LinearOrder β] {rank : Binary64 → β}
    (hbeats : ∀ a ∈ x :: xs, ∀ b ∈ x :: xs, (beats a b = true ↔ rank a < rank b)) :
    ∀ y ∈ x :: xs, rank (best beats x xs) ≤ rank y := by
  induction xs generalizing x with
  | nil =>
      rw [List.forall_mem_singleton]
      exact le_rfl
  | cons y rest ih =>
      have hx : x ∈ x :: y :: rest := List.mem_cons_self
      have hy : y ∈ x :: y :: rest := List.mem_cons_of_mem _ List.mem_cons_self
      rw [best_cons, List.forall_mem_cons, List.forall_mem_cons]
      split
      · rename_i hwins
        have hall := ih fun a ha b hb =>
          hbeats a (List.mem_cons_of_mem _ ha) b (List.mem_cons_of_mem _ hb)
        rw [List.forall_mem_cons] at hall
        exact ⟨hall.1.trans ((hbeats y hy x hx).mp hwins).le, hall⟩
      · rename_i hloses
        have hsub : x :: rest ⊆ x :: y :: rest :=
          List.cons_subset_cons _ (List.subset_cons_self _ _)
        have hall := ih fun a ha b hb => hbeats a (hsub ha) b (hsub hb)
        rw [List.forall_mem_cons] at hall
        exact ⟨hall.1, hall.1.trans (not_lt.mp ((hbeats y hy x hx).not.mp hloses)), hall.2⟩

/-- What is beaten by nothing stays. -/
theorem best_eq_self (h : ∀ y ∈ xs, beats y x = false) : best beats x xs = x := by
  induction xs with
  | nil => rfl
  | cons y rest ih =>
      rw [List.forall_mem_cons] at h
      rw [best_cons, h.1]
      exact ih h.2

/-- What beats nothing may be left out, unless it comes first. -/
theorem best_filter {p : Binary64 → Bool} (h : ∀ y, p y = false → ∀ found, beats y found = false)
    (x : Binary64) (xs : List Binary64) : best beats x (xs.filter p) = best beats x xs := by
  induction xs generalizing x with
  | nil => rfl
  | cons y rest ih =>
      rw [List.filter_cons, best_cons]
      split
      · rw [best_cons, ih]
      · rename_i hout
        rw [ih, h y (Bool.not_eq_true _ ▸ hout) x]
        rfl

end Best

/-! ## The least and the greatest -/

/-- The number is a point. -/
def isPoint (x : Binary64) : Bool := x ≠ .nan

theorem isPoint_iff : x.isPoint = true ↔ x ≠ .nan := decide_eq_true_iff

theorem eq_nan_of_not_isPoint (h : x.isPoint = false) : x = .nan :=
  not_not.mp (decide_eq_false_iff_not.mp h)

/-- What comes first and is above nothing is the least. -/
theorem least?_eq_head (h : ∀ y ∈ xs, y.lt x = false) : least? (x :: xs) = some x :=
  congrArg some (best_eq_self h)

/-- What comes first and is below nothing is the greatest. -/
theorem greatest?_eq_head (h : ∀ y ∈ xs, x.lt y = false) : greatest? (x :: xs) = some x :=
  congrArg some (best_eq_self h)

/-- NaN takes no part in the search for the least unless it comes first. -/
theorem least?_filter (hx : x ≠ .nan) : least? ((x :: xs).filter isPoint) = least? (x :: xs) := by
  rw [List.filter_cons_of_pos (isPoint_iff.mpr hx)]
  exact congrArg some (best_filter (fun y hy found => by rw [eq_nan_of_not_isPoint hy, nan_lt]) x xs)

/-- NaN takes no part in the search for the greatest unless it comes first. -/
theorem greatest?_filter (hx : x ≠ .nan) :
    greatest? ((x :: xs).filter isPoint) = greatest? (x :: xs) := by
  rw [List.filter_cons_of_pos (isPoint_iff.mpr hx)]
  exact congrArg some (best_filter (fun y hy found => by rw [eq_nan_of_not_isPoint hy, lt_nan]) x xs)

/-- The least of numbers without NaN is one of them, and at most each of them. -/
theorem least?_eq_some {least : Binary64} (hnan : .nan ∉ xs) (h : least? xs = some least) :
    least ∈ xs ∧ ∀ y ∈ xs, least ≤ y := by
  cases xs with
  | nil => cases h
  | cons x xs =>
      obtain rfl := Option.some.inj h
      have hpoint {y : Binary64} (hy : y ∈ x :: xs) : y ≠ .nan := fun hsame => hnan (hsame ▸ hy)
      have hmem := best_mem (fun y found => y.lt found) x xs
      have hbeats := @rank_best_le x xs (fun y found => y.lt found) _ _ point
        fun a ha b hb => lt_iff (hpoint ha) (hpoint hb)
      exact ⟨hmem, fun y hy => le_iff.mpr ⟨hpoint hmem, hpoint hy, hbeats y hy⟩⟩

/-- The greatest of numbers without NaN is one of them, and each of them is at most it. -/
theorem greatest?_eq_some {greatest : Binary64} (hnan : .nan ∉ xs)
    (h : greatest? xs = some greatest) : greatest ∈ xs ∧ ∀ y ∈ xs, y ≤ greatest := by
  cases xs with
  | nil => cases h
  | cons x xs =>
      obtain rfl := Option.some.inj h
      have hpoint {y : Binary64} (hy : y ∈ x :: xs) : y ≠ .nan := fun hsame => hnan (hsame ▸ hy)
      have hmem := best_mem (fun y found => found.lt y) x xs
      -- The ranks go downwards.
      have hbeats := @rank_best_le x xs (fun y found => found.lt y) _ _
        (fun y => OrderDual.toDual y.point)
        fun a ha b hb => (lt_iff (hpoint hb) (hpoint ha)).trans OrderDual.toDual_lt_toDual.symm
      exact ⟨hmem, fun y hy => le_iff.mpr ⟨hpoint hy, hpoint hmem, hbeats y hy⟩⟩

end GeoMetadata.Number.Binary64
