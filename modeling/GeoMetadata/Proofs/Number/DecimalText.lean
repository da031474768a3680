import GeoMetadata.Number.DecimalText
import GeoMetadata.Proofs.Number.IntegerText
import GeoMetadata.Proofs.Text.Padded

/-!
# The characters of numbers

The text of a number is made of digits, a point, signs, and the letters of an exponent, of an
infinity and of what is not a number (`isNumberCharacter_of_mem_shortText`).  In particular it has
no space, so that numbers are told apart in a list where spaces stand between them.  Every number
shows that it is one, by a point, an exponent or the word for an infinity (`shortText_eq_nan_iff`).
-/

namespace GeoMetadata.Number

/-- The characters that the text of a number may have beside digits. -/
def numberMarks : List Char := ['.', '-', '+', 'e', 'n', 'a', 'i', 'f']

/-- The character may stand in the text of a number. -/
def IsNumberCharacter (c : Char) : Prop := c.isDigit = true ∨ c ∈ numberMarks

instance (c : Char) : Decidable (IsNumberCharacter c) := inferInstanceAs (Decidable (_ ∨ _))

variable {d : Digits} {x : Binary64} {c : Char}

theorem isNumberCharacter_of_mem_toDigits {n : Nat} (h : c ∈ Nat.toDigits 10 n) :
    IsNumberCharacter c :=
  .inl (isDigit_of_mem_toDigits h)

theorem isNumberCharacter_of_mem_signText {negative : Bool} (h : c ∈ signText negative) :
    IsNumberCharacter c := by
  have hall : (signText negative).Forall IsNumberCharacter := by cases negative <;> decide
  exact List.forall_iff_forall_mem.mp hall c h

theorem isNumberCharacter_of_mem_positional (h : c ∈ positional d) : IsNumberCharacter c := by
  have hmarks : ∀ c ∈ ['0', '.'], IsNumberCharacter c :=
    List.forall_iff_forall_mem.mp (by decide)
  rw [List.forall_mem_cons, List.forall_mem_singleton] at hmarks
  obtain ⟨hzero, hpoint⟩ := hmarks
  have hdigits : ∀ c ∈ Nat.toDigits 10 d.digits, IsNumberCharacter c :=
    fun c => isNumberCharacter_of_mem_toDigits
  have hzeros (k : Nat) : ∀ c ∈ List.replicate k '0', IsNumberCharacter c :=
    fun c hc => List.eq_of_mem_replicate hc ▸ hzero
  revert c
  unfold positional
  split
  · rw [List.forall_mem_cons, List.forall_mem_cons, List.forall_mem_append]
    exact ⟨hzero, hpoint, hzeros _, hdigits⟩
  · dsimp only
    split
    · rw [List.forall_mem_append, List.forall_mem_append, List.forall_mem_cons,
        List.forall_mem_singleton]
      exact ⟨⟨hdigits, hzeros _⟩, hpoint, hzero⟩
    · rw [List.forall_mem_append, List.forall_mem_cons]
      exact ⟨fun c hc => hdigits c (List.mem_of_mem_take hc), hpoint,
        fun c hc => hdigits c (List.mem_of_mem_drop hc)⟩

theorem isNumberCharacter_of_mem_scientific {format : ShortFormat} (h : c ∈ scientific format d) :
    IsNumberCharacter c := by
  have hmarks : ∀ c ∈ ['.', 'e', '-', '+'], IsNumberCharacter c :=
    List.forall_iff_forall_mem.mp (by decide)
  have hdigits : ∀ c ∈ Nat.toDigits 10 d.digits, IsNumberCharacter c :=
    fun c => isNumberCharacter_of_mem_toDigits
  rcases List.mem_append.mp h with hmantissa | hexponent
  · cases htext : Nat.toDigits 10 d.digits with
    | nil =>
        rw [htext] at hmantissa
        cases hmantissa
    | cons first rest =>
        rw [htext, List.forall_mem_cons] at hdigits
        rw [htext] at hmantissa
        cases rest with
        | nil => exact List.mem_singleton.mp hmantissa ▸ hdigits.1
        | cons second others =>
            rcases List.mem_cons.mp hmantissa with rfl | hmantissa
            · exact hdigits.1
            · rcases List.mem_cons.mp hmantissa with rfl | hrest
              · exact hmarks _ (by simp)
              · exact hdigits.2 c hrest
  · rcases List.mem_cons.mp hexponent with rfl | hexponent
    · exact hmarks _ (by simp)
    · rcases List.mem_cons.mp hexponent with rfl | hpadded
      · split
        · exact hmarks _ (by simp)
        · exact hmarks _ (by simp)
      · exact .inl (Text.isAsciiDigit_of_mem_padded hpadded)

/-- The text of a number is made of the characters of numbers. -/
theorem isNumberCharacter_of_mem_shortText (h : c ∈ shortText x) : IsNumberCharacter c := by
  have hwords : ∀ c ∈ "nan".toList ++ "inf".toList ++ ['0', '.', '0'], IsNumberCharacter c :=
    List.forall_iff_forall_mem.mp (by decide)
  rw [List.forall_mem_append, List.forall_mem_append] at hwords
  obtain ⟨⟨hnan, hinfinite⟩, hzero⟩ := hwords
  unfold shortText at h
  split at h
  · exact hnan c h
  · rcases List.mem_append.mp h with hsign | hrest
    · exact isNumberCharacter_of_mem_signText hsign
    · exact hinfinite c hrest
  · rcases List.mem_append.mp h with hsign | hrest
    · exact isNumberCharacter_of_mem_signText hsign
    · exact hzero c hrest
  · rcases List.mem_append.mp h with hsign | hrest
    · exact isNumberCharacter_of_mem_signText hsign
    · split at hrest
      · exact isNumberCharacter_of_mem_positional hrest
      · exact isNumberCharacter_of_mem_scientific hrest

theorem space_not_mem_shortText (x : Binary64) : ' ' ∉ shortText x := fun h =>
  absurd (isNumberCharacter_of_mem_shortText h) (by decide)

theorem point_mem_positional (d : Digits) : '.' ∈ positional d := by
  unfold positional
  split
  · simp
  · dsimp only
    split <;> simp

theorem exponent_mem_scientific (format : ShortFormat) (d : Digits) : 'e' ∈ scientific format d :=
  List.mem_append_right _ List.mem_cons_self

/-- Only what is not a number is written so. -/
theorem shortText_eq_nan_iff : shortText x = "nan".toList ↔ x = .nan := by
  constructor
  · intro htext
    by_contra hnumber
    have hmark : '.' ∈ shortText x ∨ 'e' ∈ shortText x ∨ 'f' ∈ shortText x := by
      unfold shortText
      split
      · exact absurd rfl hnumber
      · simp
      · simp
      · dsimp only
        split
        · exact .inl (List.mem_append_right _ (point_mem_positional _))
        · exact .inr (.inl (List.mem_append_right _ (exponent_mem_scientific _ _)))
    rw [htext] at hmark
    exact absurd hmark (by decide)
  · rintro rfl
    rfl

end GeoMetadata.Number
