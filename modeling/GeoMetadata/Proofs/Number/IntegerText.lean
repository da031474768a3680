import GeoMetadata.Number.Integer
import GeoMetadata.Proofs.Outcome
import Mathlib.Data.List.TakeWhile

/-!
# Integers within the limit of digits

An integer is written exactly if it has at most `digitLimit` digits, which is a bound on its
magnitude (`succeeds_integerText`).  A numeral within the limit is read if its digits are decimal
(`readNatural_eq_ok_iff`).  The text of a natural number is such a numeral and gives the number
again (`readDigits?_toDigits`): its characters are ASCII digits, whose values are among the values
of the decimal digits of all scripts.
-/

namespace GeoMetadata

/-- The characters of a decimal text are digits with their ASCII values. -/
theorem Text.digitValue?_of_isDigit {c : Char} (hdigit : c.isDigit = true) :
    digitValue? c = some (c.toNat - '0'.toNat) := by
  obtain ⟨hlow, hhigh⟩ := Char.isDigit_iff_toNat.mp hdigit
  have hzero : '0'.toNat = 0x30 := rfl
  have hnine : '9'.toNat = 0x30 + 9 := rfl
  have hblock : (decide (0x30 ≤ c.toNat) && decide (c.toNat ≤ 0x30 + 9)) = true := by
    rw [Bool.and_eq_true, decide_eq_true_eq, decide_eq_true_eq]
    omega
  rw [digitValue?, decimalZeros, List.find?_cons, hblock]
  rfl

theorem Text.readDigits?_eq_some {text : List Char} (hdigits : ∀ c ∈ text, c.isDigit = true) :
    readDigits? text = some (Nat.ofDigitChars 10 text 0) := by
  have hvalues : text.mapM digitValue? = some (text.map fun c => c.toNat - '0'.toNat) := by
    induction text with
    | nil => rfl
    | cons c rest ih =>
        obtain ⟨hc, hrest⟩ := List.forall_mem_cons.mp hdigits
        rw [List.mapM_cons, ih hrest, digitValue?_of_isDigit hc]
        rfl
  rw [readDigits?, hvalues, Option.map_some, ofDigits, List.foldl_map, Nat.ofDigitChars_eq_foldl]

theorem Text.readDigits?_eq_none_iff {text : List Char} :
    readDigits? text = none ↔ ∃ c ∈ text, digitValue? c = none := by
  rw [readDigits?, Option.map_eq_none_iff, mapM_eq_none_iff]

theorem Text.isDigit_of_readDigits? {text : List Char} {n : Nat} (h : readDigits? text = some n) :
    ∀ c ∈ text, isDigit c = true := by
  intro c hc
  cases hvalue : digitValue? c with
  | none => simp [readDigits?_eq_none_iff.mpr ⟨c, hc, hvalue⟩] at h
  | some value => simp [isDigit, hvalue]

theorem Text.le_nine_of_digitValue? {c : Char} {value : Nat} (h : digitValue? c = some value) :
    value ≤ 9 := by
  rw [digitValue?, Option.map_eq_some_iff] at h
  obtain ⟨low, hlow, rfl⟩ := h
  have hblock := List.find?_some hlow
  rw [Bool.and_eq_true, decide_eq_true_eq, decide_eq_true_eq] at hblock
  omega

/-- Digits after a number denote one below the next number with as many zeros after it. -/
theorem Text.foldl_digits_lt {text : List Char} {values : List Nat}
    (hvalues : text.mapM digitValue? = some values) (n : Nat) :
    values.foldl (fun n d => 10 * n + d) n < (n + 1) * Nat.pow 10 text.length := by
  induction text generalizing values n with
  | nil =>
      obtain rfl := Option.some.inj hvalues
      exact Nat.lt_of_lt_of_eq (Nat.lt_succ_self n) (Nat.mul_one (n + 1)).symm
  | cons c rest ih =>
      rw [List.mapM_cons, Option.bind_eq_bind, Option.bind_eq_some_iff] at hvalues
      obtain ⟨value, hvalue, hvalues⟩ := hvalues
      rw [Option.bind_eq_bind, Option.bind_eq_some_iff] at hvalues
      obtain ⟨others, hothers, hvalues⟩ := hvalues
      obtain rfl := Option.some.inj hvalues
      have hnine := le_nine_of_digitValue? hvalue
      calc others.foldl (fun n d => 10 * n + d) (10 * n + value)
          < (10 * n + value + 1) * Nat.pow 10 rest.length := ih hothers _
        _ ≤ ((n + 1) * 10) * Nat.pow 10 rest.length := Nat.mul_le_mul_right _ (by omega)
        _ = (n + 1) * Nat.pow 10 (rest.length + 1) := by
          rw [Nat.pow_eq, Nat.pow_eq, Nat.pow_succ, Nat.mul_assoc, Nat.mul_comm 10]

theorem Text.lt_pow_of_readDigits? {text : List Char} {n : Nat} (h : readDigits? text = some n) :
    n < Nat.pow 10 text.length := by
  rw [readDigits?, Option.map_eq_some_iff] at h
  obtain ⟨values, hvalues, rfl⟩ := h
  simpa [ofDigits] using foldl_digits_lt hvalues 0

namespace Number

open Text

variable {text : List Char}

/-- The least magnitude of an integer that is too long to be written. -/
def unwritableMagnitude : Nat := Nat.pow 10 digitLimit

theorem ten_le_unwritableMagnitude : 10 ≤ unwritableMagnitude :=
  Nat.le_self_pow (by decide) 10

@[simp] theorem one_lt_unwritableMagnitude : 1 < unwritableMagnitude :=
  Nat.lt_of_lt_of_le (by decide) ten_le_unwritableMagnitude

theorem length_toDigits_le_digitLimit {n : Nat} :
    (Nat.toDigits 10 n).length ≤ digitLimit ↔ n < unwritableMagnitude :=
  Nat.length_toDigits_le_iff (by decide) (by decide)

theorem succeeds_integerText {n : Int} :
    Succeeds (integerText n) ↔ n.natAbs < unwritableMagnitude := by
  unfold integerText
  rw [← length_toDigits_le_digitLimit]
  split <;> simp [*]

theorem integerText_natCast {n : Nat} (hn : n < unwritableMagnitude) :
    integerText n = .ok (String.ofList (Nat.toDigits 10 n)) := by
  rw [integerText, decimalText, Int.natAbs_natCast,
    if_pos (length_toDigits_le_digitLimit.mpr hn), if_neg (Int.not_lt.mpr (Int.natCast_nonneg n))]

theorem isDigit_of_mem_toDigits {n : Nat} {c : Char} (hc : c ∈ Nat.toDigits 10 n) :
    c.isDigit = true := Nat.isDigit_of_mem_toDigits (by decide) (by decide) hc

theorem readDigits?_toDigits (n : Nat) : readDigits? (Nat.toDigits 10 n) = some n := by
  rw [readDigits?_eq_some fun c => isDigit_of_mem_toDigits, Nat.ofDigitChars_ten_toDigits]

theorem readNatural_eq_ok_iff {n : Nat} :
    readNatural (String.ofList text) = .ok n ↔ text.length ≤ digitLimit ∧ readDigits? text = some n := by
  rw [readNatural, String.toList_ofList]
  cases hread : readDigits? text with
  | none =>
      dsimp only
      split <;> simp
  | some value =>
      have hall : ∀ c ∈ text, (digitValue? c).isSome = true := by
        intro c hc
        refine Option.isSome_iff_ne_none.mpr fun hvalue => ?_
        simp [readDigits?_eq_none_iff.mpr ⟨c, hc, hvalue⟩] at hread
      rw [List.takeWhile_eq_self_iff.mpr hall]
      dsimp only
      split
      · rename_i hlong
        simp [Nat.not_le.mpr hlong]
      · rename_i hshort
        simp [Nat.not_lt.mp hshort]

/-- What is read can be written. -/
theorem lt_unwritableMagnitude_of_readNatural {n : Nat}
    (h : readNatural (String.ofList text) = .ok n) : n < unwritableMagnitude := by
  obtain ⟨hlength, hread⟩ := readNatural_eq_ok_iff.mp h
  exact Nat.lt_of_lt_of_le (lt_pow_of_readDigits? hread) (Nat.pow_le_pow_right (by decide) hlength)

theorem readNatural_eq_error_iff :
    (∃ fault, readNatural (String.ofList text) = .error fault) ↔
      (∃ c ∈ text, digitValue? c = none) ∨ digitLimit < text.length := by
  rw [← readDigits?_eq_none_iff, ← Nat.not_le]
  cases hnatural : readNatural (String.ofList text) with
  | ok n =>
      obtain ⟨hlength, hread⟩ := readNatural_eq_ok_iff.mp hnatural
      simp [hlength, hread]
  | error fault =>
      refine iff_of_true ⟨fault, rfl⟩ (or_iff_not_imp_left.mpr fun hread hlength => ?_)
      obtain ⟨n, hn⟩ := Option.ne_none_iff_exists'.mp hread
      rw [readNatural_eq_ok_iff.mpr ⟨hlength, hn⟩] at hnatural
      cases hnatural

end Number

end GeoMetadata
