import GeoMetadata.Text.Digits
import Mathlib.Data.List.Forall2
import Mathlib.Data.Nat.Init

/-!
# Numbers of a fixed width

A number that is filled with zeros on the left is written like the number without its last digit,
with that digit after it (`padded_succ`).  What is said about such numbers goes by that: they have
the width that they are filled to, they read back, and as texts they are in the order that they are
in as numbers.

Texts that are made of several such numbers, each with a mark after it, are written by `spell`.  All
numbers of a field have one width, so that two of these texts compare as the lists of their numbers
do: the first number decides before the others (`spell_lt_spell`).
-/

namespace GeoMetadata.Text

variable {width n m : Nat}

/-! ## One number -/

theorem padded_one (hn : n < 10) : padded 1 n = [Nat.digitChar n] := by
  rw [padded, Nat.toDigits_of_lt_base hn]
  rfl

theorem padded_succ (hwidth : 0 < width) (n : Nat) :
    padded (width + 1) n = padded width (n / 10) ++ [Nat.digitChar (n % 10)] := by
  by_cases hn : n < 10
  · -- The other digits are all zeros, the last of which is written as the number zero.
    obtain ⟨zeros, rfl⟩ := Nat.exists_eq_add_of_le' hwidth
    rw [padded, padded, Nat.toDigits_of_lt_base hn, Nat.div_eq_of_lt hn,
      Nat.toDigits_of_lt_base (by decide), Nat.mod_eq_of_lt hn, List.length_singleton,
      List.length_singleton, Nat.add_sub_cancel, Nat.add_sub_cancel, List.replicate_succ']
    rfl
  · rw [padded, padded, Nat.toDigits_eq_if (by decide), if_neg hn, List.length_append,
      List.length_singleton, Nat.add_sub_add_right, List.append_assoc]

theorem div_ten_lt (hn : n < Nat.pow 10 (width + 1)) : n / 10 < Nat.pow 10 width := by
  rw [Nat.pow_eq, Nat.pow_succ] at hn
  exact Nat.div_lt_of_lt_mul (Nat.mul_comm _ _ ▸ hn)

theorem length_padded (hwidth : 0 < width) (hn : n < Nat.pow 10 width) :
    (padded width n).length = width := by
  induction width, hwidth using Nat.le_induction generalizing n with
  | base => rw [padded_one hn, List.length_singleton]
  | succ width hwidth ih =>
      rw [padded_succ hwidth, List.length_append, ih (div_ten_lt hn), List.length_singleton]

theorem isAsciiDigit_of_mem_padded {c : Char} (hc : c ∈ padded width n) : isAsciiDigit c = true := by
  rcases List.mem_append.mp hc with hzero | hdigit
  · rw [List.eq_of_mem_replicate hzero]
    rfl
  · exact Nat.isDigit_of_mem_toDigits (by decide) (by decide) hdigit

theorem ofAsciiDigits_concat (text : List Char) (c : Char) :
    ofAsciiDigits (text ++ [c]) = 10 * ofAsciiDigits text + asciiDigitValue c := by
  rw [ofAsciiDigits, ofAsciiDigits, ofDigits, ofDigits, List.map_append, List.foldl_append]
  rfl

theorem asciiDigitValue_digitChar (hn : n < 10) : asciiDigitValue (Nat.digitChar n) = n := by
  rw [asciiDigitValue, Nat.toNat_digitChar_of_lt_ten hn]
  exact Nat.add_sub_cancel_left 48 n

theorem ofAsciiDigits_padded (hwidth : 0 < width) (hn : n < Nat.pow 10 width) :
    ofAsciiDigits (padded width n) = n := by
  induction width, hwidth using Nat.le_induction generalizing n with
  | base =>
      rw [padded_one hn]
      exact (Nat.zero_add _).trans (asciiDigitValue_digitChar hn)
  | succ width hwidth ih =>
      rw [padded_succ hwidth, ofAsciiDigits_concat, ih (div_ten_lt hn),
        asciiDigitValue_digitChar (Nat.mod_lt n (by decide)), Nat.div_add_mod]

/-! ## Order -/

/-- Texts of one length compare before what comes after them. -/
theorem append_lt_append {first second : List Char} (hlength : first.length = second.length)
    (hlt : first < second) (rest other : List Char) : first ++ rest < second ++ other := by
  induction first generalizing second with
  | nil =>
      cases second with
      | nil => exact absurd hlt (List.lt_irrefl [])
      | cons d second => cases hlength
  | cons c first ih =>
      cases second with
      | nil => cases hlength
      | cons d second =>
          rw [List.cons_append, List.cons_append, List.cons_lt_cons_iff]
          refine (List.cons_lt_cons_iff.mp hlt).imp_right fun htail => ⟨htail.1, ?_⟩
          exact ih (Nat.succ.inj hlength) htail.2

theorem digitChar_lt_digitChar (hm : m < 10) (hlt : n < m) : Nat.digitChar n < Nat.digitChar m := by
  have hn : n < 10 := Nat.lt_trans hlt hm
  have hvalues : (Nat.digitChar n).toNat < (Nat.digitChar m).toNat := by
    rw [Nat.toNat_digitChar_of_lt_ten hn, Nat.toNat_digitChar_of_lt_ten hm]
    exact Nat.add_lt_add_left hlt 48
  exact hvalues

theorem padded_lt_padded (hwidth : 0 < width) (hm : m < Nat.pow 10 width) (hlt : n < m) :
    padded width n < padded width m := by
  induction width, hwidth using Nat.le_induction generalizing n m with
  | base =>
      rw [padded_one (Nat.lt_trans hlt hm), padded_one hm, List.cons_lt_cons_iff]
      exact .inl (digitChar_lt_digitChar hm hlt)
  | succ width hwidth ih =>
      rw [padded_succ hwidth, padded_succ hwidth]
      have hn := Nat.lt_trans hlt hm
      rcases Nat.lt_or_ge (n / 10) (m / 10) with hfront | hfront
      · refine append_lt_append ?_ (ih (div_ten_lt hm) hfront) _ _
        rw [length_padded hwidth (div_ten_lt hn), length_padded hwidth (div_ten_lt hm)]
      · -- The numbers differ in their last digits alone.
        have hsame : n / 10 = m / 10 := by omega
        have hlast : n % 10 < m % 10 := by omega
        rw [hsame]
        refine List.append_left_lt (List.cons_lt_cons_iff.mpr (.inl ?_))
        exact digitChar_lt_digitChar (Nat.mod_lt m (by decide)) hlast

/-! ## Several numbers with marks after them -/

/-- The numbers are written one after the other, each with the width and the mark of its field. -/
def spell : List (Nat × Char) → List Nat → List Char
  | (width, mark) :: fields, n :: numbers => padded width n ++ mark :: spell fields numbers
  | _, _ => []

/-- The numbers have as many digits at most as their fields are wide. -/
def Fit (fields : List (Nat × Char)) (numbers : List Nat) : Prop :=
  List.Forall₂ (fun field n => 0 < field.1 ∧ n < Nat.pow 10 field.1) fields numbers

theorem spell_lt_spell {fields : List (Nat × Char)} {numbers others : List Nat}
    (hnumbers : Fit fields numbers) (hothers : Fit fields others) (hlt : numbers < others) :
    spell fields numbers < spell fields others := by
  induction hnumbers generalizing others with
  | nil =>
      cases hothers
      exact absurd hlt (List.lt_irrefl [])
  | @cons field n fields numbers hn hnumbers ih =>
      cases hothers with
      | @cons _ m _ others hm hothers =>
          rw [spell, spell]
          rcases List.cons_lt_cons_iff.mp hlt with hfirst | ⟨rfl, hrest⟩
          · refine append_lt_append ?_ (padded_lt_padded hn.1 hm.2 hfirst) _ _
            rw [length_padded hn.1 hn.2, length_padded hm.1 hm.2]
          · refine List.append_left_lt (List.cons_lt_cons_iff.mpr (.inr ⟨rfl, ?_⟩))
            exact ih hothers hrest

/-- The text of a field: digits for zeros, and other characters as they are. -/
def Answers (form text : List Char) : Prop :=
  List.Forall₂ (fun mark c => if mark = '0' then isAsciiDigit c = true else c = mark) form text

theorem answers_spell {fields : List (Nat × Char)} {numbers : List Nat}
    (hmarks : ∀ field ∈ fields, field.2 ≠ '0') (h : Fit fields numbers) :
    Answers (fields.flatMap fun field => List.replicate field.1 '0' ++ [field.2])
      (spell fields numbers) := by
  induction h with
  | nil => exact .nil
  | @cons field n fields numbers hn _ ih =>
      obtain ⟨hmark, hmarks⟩ := List.forall_mem_cons.mp hmarks
      rw [List.flatMap_cons, List.append_assoc, List.singleton_append, spell]
      refine List.rel_append ?digits (.cons ?after (ih hmarks))
      case digits =>
        rw [List.forall₂_iff_zip]
        refine ⟨by rw [List.length_replicate, length_padded hn.1 hn.2], fun {a b} hab => ?_⟩
        obtain ⟨hzero, hdigit⟩ := List.of_mem_zip hab
        rw [if_pos (List.eq_of_mem_replicate hzero)]
        exact isAsciiDigit_of_mem_padded hdigit
      case after => rw [if_neg hmark]

theorem Answers.ascii {form text : List Char} (h : Answers form text)
    (hform : ∀ mark ∈ form, mark.toNat < 0x80) : ∀ c ∈ text, c.toNat < 0x80 := by
  induction h with
  | nil => exact hform
  | @cons mark c form text hmark _ ih =>
      obtain ⟨hfirst, hrest⟩ := List.forall_mem_cons.mp hform
      refine List.forall_mem_cons.mpr ⟨?_, ih hrest⟩
      split at hmark
      · have hnine : c ≤ '9' := by
          rw [isAsciiDigit, Bool.and_eq_true, decide_eq_true_eq, decide_eq_true_eq] at hmark
          exact hmark.2
        exact Nat.lt_of_le_of_lt hnine (by decide)
      · exact hmark ▸ hfirst

end GeoMetadata.Text
