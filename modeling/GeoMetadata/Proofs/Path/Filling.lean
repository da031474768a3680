import GeoMetadata.Path.Template
import GeoMetadata.Proofs.Path.Spelling
import GeoMetadata.Proofs.Text.Search

/-!
# Template texts and the paths they are filled to

An index can be put into any text if it is positive and can be written (`fill_eq_ok_iff`).  The text
may be of any form: placeholders may overlap, and pieces of them may stand around others.  No
placeholder comes of them, because a digit is put between the pieces and a placeholder has no digit.
So a filled text is never refused for a placeholder, which is what happens to an absolute path that
has one and to no other (`read_eq_placeholder_iff`); and the index can be told from it if there was
something to fill (`fill_leaves_no_placeholder`).
-/

namespace GeoMetadata.Path

open Number Text

/-! ## Indices -/

section Indices

variable {template path : String} {index other : Int}

theorem fill_eq_ok_iff : fill template index = .ok path ↔
    0 < index ∧ index.natAbs < unwritableMagnitude ∧
      path = String.ofList (replaceAll placeholder (Nat.toDigits 10 index.natAbs) template.toList) := by
  rw [fill]
  cases hdigits : integerText index with
  | error fault =>
      have hlarge : ¬ index.natAbs < unwritableMagnitude := fun hsmall => by
        obtain ⟨digits, hok⟩ := succeeds_integerText.mpr hsmall
        rw [hok] at hdigits
        cases hdigits
      simp [hlarge]
  | ok digits =>
      have hsmall : index.natAbs < unwritableMagnitude := succeeds_integerText.mp ⟨digits, hdigits⟩
      by_cases hpositive : 0 < index
      · lift index to Nat using Int.le_of_lt hpositive
        rw [Int.natAbs_natCast] at hsmall
        rw [integerText_natCast hsmall] at hdigits
        obtain rfl := Except.ok.inj hdigits
        have hzero : ¬ (index : Int) ≤ 0 := Int.not_le.mpr hpositive
        simp only [if_neg hzero, Except.ok.injEq, String.toList_ofList, Int.natAbs_natCast, hpositive,
          hsmall, true_and, @eq_comm _ path]
      · simp [hpositive, Int.not_lt.mp hpositive]

/-- The index can be told from the path if there is a placeholder. -/
theorem eq_of_fill_eq (hplaceholder : placeholder <:+: template.toList)
    (hpath : fill template index = .ok path) (hother : fill template other = .ok path) :
    index = other := by
  obtain ⟨hindex, -, rfl⟩ := fill_eq_ok_iff.mp hpath
  obtain ⟨hpositive, -, heq⟩ := fill_eq_ok_iff.mp hother
  have hdigits : Nat.toDigits 10 index.natAbs = Nat.toDigits 10 other.natAbs :=
    replaceAll_injective (by decide) hplaceholder (String.ofList_inj.mp heq)
  have habs : index.natAbs = other.natAbs := by
    have hread := congrArg readDigits? hdigits
    rw [readDigits?_toDigits, readDigits?_toDigits] at hread
    exact Option.some.inj hread
  omega

theorem fill_of_nonpos (hindex : index ≤ 0) (hdigits : index.natAbs < unwritableMagnitude) :
    fill template index = .error (.notPositive index template) := by
  obtain ⟨digits, hok⟩ := succeeds_integerText.mpr hdigits
  rw [fill, hok]
  exact if_pos hindex

/-- A template text is filled exactly with the positive indices that can be written. -/
theorem succeeds_fill {index : Nat} :
    Succeeds (fill template index) ↔ 0 < index ∧ index < unwritableMagnitude := by
  simp [Succeeds, fill_eq_ok_iff]

end Indices

/-! ## Placeholders that are left -/

section Left

variable {text : List Char}

theorem failsWith_readIndex (index : List Char) :
    FailsWith (· ≠ .form .placeholder) (readIndex text index) := by
  unfold readIndex
  split
  · simp
  · split <;> simp

theorem failsWith_readElement : FailsWith (· ≠ .form .placeholder) (readElement text) := by
  unfold readElement
  dsimp only
  split
  · simp
  · split
    · simp
    · split
      · exact (failsWith_readIndex _).bind fun _ _ => failsWith_ok _ _
      · simp
    · simp

theorem failsWith_readSegment (isLast : Bool) :
    FailsWith (· ≠ .form .placeholder) (readSegment isLast text) := by
  unfold readSegment
  split
  · split <;> simp
  · exact failsWith_readElement

/-- Segments are never at fault for a placeholder. -/
theorem failsWith_readSegments (texts : List (List Char)) :
    FailsWith (· ≠ .form .placeholder) (readSegments texts) := by
  induction texts with
  | nil => exact failsWith_ok _ _
  | cons text rest ih =>
      rw [readSegments]
      exact (failsWith_readSegment _).bind fun _ _ => ih.bind fun _ _ => failsWith_ok _ _

/-- An absolute path is refused for a placeholder exactly if it has one. -/
theorem read_eq_placeholder_iff {path : String} : read path = .error (.form .placeholder) ↔
    ['/'] <+: path.toList ∧ placeholder <:+: path.toList := by
  unfold read
  split
  · rename_i rest hpath
    have habsolute : ['/'] <+: path.toList := hpath ▸ List.prefix_append ['/'] rest
    rw [and_iff_right habsolute, ← contains_eq_true_iff]
    split
    · rename_i hleft
      exact iff_of_true rfl hleft
    · rename_i hfilled
      refine iff_of_false ?_ hfilled
      dsimp only
      split
      · simp
      · intro hfault
        exact failsWith_readSegments _ _ hfault rfl
  · rename_i hrelative
    refine iff_of_false (by simp) ?_
    rintro ⟨⟨rest, hrest⟩, -⟩
    exact hrelative rest hrest.symm

end Left

/-! ## Filled texts -/

/-- The digits of an index are not among the characters of a placeholder. -/
theorem not_mem_placeholder_of_mem_toDigits {n : Nat} {c : Char} (hc : c ∈ Nat.toDigits 10 n) :
    c ∉ placeholder := by
  have hsigns : placeholder.all (!Char.isDigit ·) = true := by decide
  intro hmem
  have hsign := List.all_eq_true.mp hsigns c hmem
  rw [isDigit_of_mem_toDigits hc] at hsign
  cases hsign

theorem not_infix_of_fill_eq_ok {template path : String} {index : Int}
    (hpath : fill template index = .ok path) : ¬ placeholder <:+: path.toList := by
  obtain ⟨-, -, rfl⟩ := fill_eq_ok_iff.mp hpath
  rw [String.toList_ofList]
  exact not_infix_replaceAll (by decide) Nat.toDigits_ne_nil
    (fun _ => not_mem_placeholder_of_mem_toDigits) template.toList

/-- A positive index of few enough digits is put into any template text, in the place of each
placeholder.  The path has no placeholder, so that it is not refused for one, and no other index
gives it unless there was none to fill. -/
theorem fill_leaves_no_placeholder (template : String) {index : Int} (hpositive : 0 < index)
    (hdigits : (Nat.toDigits 10 index.natAbs).length ≤ digitLimit) :
    ∃ path, fill template index = .ok path ∧
      (∃ pieces, template.toList = placeholder.intercalate pieces ∧
        path.toList = (Nat.toDigits 10 index.natAbs).intercalate pieces) ∧
      ¬ placeholder <:+: path.toList ∧ read path ≠ .error (.form .placeholder) ∧
      (placeholder <:+: template.toList →
        ∀ other, other ≠ index → fill template other ≠ .ok path) := by
  have hfill : ∃ path, fill template index = .ok path :=
    ⟨_, fill_eq_ok_iff.mpr ⟨hpositive, length_toDigits_le_digitLimit.mp hdigits, rfl⟩⟩
  obtain ⟨path, hpath⟩ := hfill
  have hfree : ¬ placeholder <:+: path.toList := not_infix_of_fill_eq_ok hpath
  refine ⟨path, hpath, ?_, hfree, fun hread => ?_, fun hplaceholder other hother hsame => ?_⟩
  · obtain ⟨piece, pieces, htemplate, -, hreplaced⟩ :=
      exists_replaceAll_eq (by decide : placeholder ≠ []) template.toList
    obtain ⟨-, -, rfl⟩ := fill_eq_ok_iff.mp hpath
    refine ⟨piece :: pieces, htemplate, ?_⟩
    rw [String.toList_ofList, hreplaced]
  · exact hfree (read_eq_placeholder_iff.mp hread).2
  · exact hother (eq_of_fill_eq hplaceholder hsame hpath)

/-- Placeholders that overlap, and one that stands between two pieces of one. -/
def crowdedTemplate : String := "/%index%index%/%ind%index%ex%[%index%]"

theorem crowded_fill_leaves_no_placeholder :
    (0 : Int) < 12 ∧ (Nat.toDigits 10 (12 : Int).natAbs).length ≤ digitLimit ∧
    fill crowdedTemplate 12 = .ok "/12index%/%ind12ex%[12]" ∧
    ¬ placeholder <:+: "/12index%/%ind12ex%[12]".toList ∧
    read "/12index%/%ind12ex%[12]" ≠ .error (.form .placeholder) ∧
    fill crowdedTemplate 121 ≠ .ok "/12index%/%ind12ex%[12]" := by
  have hpositive : (0 : Int) < 12 := by decide
  have hdigits : (Nat.toDigits 10 (12 : Int).natAbs).length ≤ digitLimit := by decide
  have hplaceholder : placeholder <:+: crowdedTemplate.toList :=
    contains_eq_true_iff.mp (by decide)
  have hfilled : fill crowdedTemplate 12 = .ok "/12index%/%ind12ex%[12]" := by decide
  obtain ⟨path, hpath, -, hfree, hread, htold⟩ :=
    fill_leaves_no_placeholder crowdedTemplate hpositive hdigits
  obtain rfl := Except.ok.inj (hfilled.symm.trans hpath)
  exact ⟨hpositive, hdigits, hfilled, hfree, hread, htold hplaceholder 121 (by decide)⟩

end GeoMetadata.Path
