import GeoMetadata.Proofs.Profile.Arrangement

/-!
# The faults of a conversion

A conversion ends with a fault of a section or with one of a write that has no path.  The sections
fail on values of the record only.  A write has no path if its index is not positive or if it is too
long to be written, but all indices that the sections come up with are positive
(`Arranged.positive`).  So no conversion fails because it counts wrongly (`failsWith_assignments`).
-/

namespace GeoMetadata.Profile

open GeoMetadata.Path (Template)

/-- The fault lies in a value of the record, and not in the number of a place. -/
def ConversionFault.IsOfValue : ConversionFault → Prop
  | .integer (.notPositive ..) => False
  | _ => True

variable {source : Source} {writes : List Write}

/-! ## The sections -/

theorem failsWith_dateText (t : Time.DateTime) :
    FailsWith ConversionFault.IsOfValue (dateText t) := by
  unfold dateText
  split
  · exact failsWith_ok _ _
  · exact failsWith_error.mpr trivial

theorem failsWith_caveat? (control? : Option Value) (parties : List Value) :
    FailsWith ConversionFault.IsOfValue (caveat? control? parties) := by
  unfold caveat?
  split
  · split
    · exact failsWith_ok _ _
    · split
      · exact failsWith_ok _ _
      · exact failsWith_error.mpr trivial
  · exact failsWith_ok _ _

theorem failsWith_dateStampWrites :
    FailsWith ConversionFault.IsOfValue (dateStampWrites source) :=
  (failsWith_dateText _).bind fun _ _ => failsWith_ok _ _

theorem failsWith_citationWrites : FailsWith ConversionFault.IsOfValue (citationWrites source) := by
  refine (failsWith_mapM fun date _ => ?_).bind fun dates _ => ?_
  · exact (failsWith_dateText date.2).bind fun _ _ => failsWith_ok _ _
  · refine FailsWith.bind ?_ fun _ _ => failsWith_ok _ _
    cases source.record.moment? Attribute.created with
    | none => exact failsWith_ok _ _
    | some date => exact (failsWith_dateText date).map _

theorem failsWith_securityWrites (places : Layout.SecurityPlaces)
    (protection : Attribute.Protection) :
    FailsWith ConversionFault.IsOfValue (securityWrites places protection source) :=
  (failsWith_caveat? _ _).bind fun _ _ => failsWith_ok _ _

theorem failsWith_locationContribution {progress : Progress} :
    FailsWith ConversionFault.IsOfValue (locationContribution source progress) := by
  unfold locationContribution
  split
  · exact failsWith_ok _ _
  · split
    · exact failsWith_ok _ _
    · exact failsWith_ok _ _
    · exact failsWith_error.mpr trivial

theorem failsWith_temporalContribution {progress : Progress} :
    FailsWith ConversionFault.IsOfValue (temporalContribution source progress) := by
  have hdates (ts : List Time.DateTime) : FailsWith ConversionFault.IsOfValue (dateTexts ts) :=
    failsWith_mapM fun date _ => failsWith_dateText date
  exact (hdates _).bind fun _ _ => (hdates _).bind fun _ _ => failsWith_ok _ _

theorem failsWith_verticalWrites : FailsWith ConversionFault.IsOfValue (verticalWrites source) := by
  unfold verticalWrites
  split
  · exact failsWith_error.mpr trivial
  · split <;> exact failsWith_ok _ _

theorem failsWith_imageWrites : FailsWith ConversionFault.IsOfValue (imageWrites source) := by
  simp only [imageWrites]
  split
  · exact failsWith_ok _ _
  · split
    · exact failsWith_ok _ _
    · exact failsWith_error.mpr trivial

/-- The section fails on values of the record only. -/
def Section.FailsOnValues (part : Section) : Prop :=
  ∀ source progress, FailsWith ConversionFault.IsOfValue (part.contribute source progress)

theorem failsOnValues_checked (name : String)
    {writes : Source → Except ConversionFault (List Write)}
    (h : ∀ source, FailsWith ConversionFault.IsOfValue (writes source)) :
    (Section.checked name writes).FailsOnValues := fun source _ => (h source).map _

theorem failsOnValues_of_mem : ∀ part ∈ sections, part.FailsOnValues := by
  have hlocation : Section.FailsOnValues ⟨"bounding_polygon", locationContribution⟩ :=
    fun _ _ => failsWith_locationContribution
  have htemporal : Section.FailsOnValues ⟨"temporal_elements", temporalContribution⟩ :=
    fun _ _ => failsWith_temporalContribution
  simp only [sections, List.forall_mem_cons]
  refine ⟨?_, ?_, ?_, ?_, ?_, ?_, ?stamp, ?_, ?_, ?citation, ?_, ?_, ?_, ?_, ?resource, ?_, ?_, ?_, ?_,
    hlocation, htemporal, ?vertical, ?image, ?_, ?metadata, by simp⟩
  case stamp => exact failsOnValues_checked _ fun _ => failsWith_dateStampWrites
  case citation => exact failsOnValues_checked _ fun _ => failsWith_citationWrites
  case resource =>
    exact failsOnValues_checked _ fun _ =>
      (failsWith_securityWrites _ _).bind fun _ _ => failsWith_ok _ _
  case vertical => exact failsOnValues_checked _ fun _ => failsWith_verticalWrites
  case image => exact failsOnValues_checked _ fun _ => failsWith_imageWrites
  case metadata => exact failsOnValues_checked _ fun _ => failsWith_securityWrites _ _
  all_goals exact fun _ _ => failsWith_ok _ _

/-! ## Runs -/

/-- A section with writes at positive indices fails on values only, also when its writes are
added. -/
theorem failsWith_extend {part : Section} {templates : List Template} {draft : Draft}
    (hfails : part.FailsOnValues) (harranges : part.Arranges templates) :
    FailsWith ConversionFault.IsOfValue (part.extend source draft) := by
  refine (hfails source draft.progress).bind fun given hgiven => ?_
  -- The one fault that is not of a value is excluded by the positive indices of the section.
  have hpositive := (harranges _ _ _ hgiven).positive
  have hwrites : FailsWith (fun fault => ConversionFault.IsOfValue (.integer fault))
      (given.writes.mapM Write.assignment) := by
    refine failsWith_mapM fun write hwrite => ?_
    have hfill : FailsWith (fun fault => ConversionFault.IsOfValue (.integer fault))
        (Path.fill write.template.text write.index) := by
      have hindex : ¬ (write.index : Int) ≤ 0 := by
        have := hpositive write hwrite
        omega
      unfold Path.fill
      split
      · exact failsWith_error.mpr trivial
      · rw [if_neg hindex]
        exact failsWith_ok _ _
    exact hfill.bind fun _ _ => failsWith_ok _ _
  unfold Draft.add
  split
  · rename_i fault heq
    exact failsWith_error.mpr (hwrites fault heq)
  · exact failsWith_ok _ _

theorem isOfValue_of_runSections {parts : List Section} {all : List (List Template)}
    {draft done : Draft} {fault : ConversionFault}
    (hfails : ∀ part ∈ parts, part.FailsOnValues) (harranges : List.Forall₂ Section.Arranges parts all)
    (hrun : runSections source parts draft = (done, some fault)) : fault.IsOfValue := by
  induction harranges generalizing draft with
  | nil => nomatch hrun
  | cons hpart hrest ih =>
      obtain ⟨hfirst, hothers⟩ := List.forall_mem_cons.mp hfails
      rw [runSections] at hrun
      split at hrun
      · exact ih hothers hrun
      · rename_i found heq
        obtain ⟨-, hfault⟩ := Prod.mk.inj hrun
        obtain rfl := Option.some.inj hfault
        exact failsWith_extend hfirst hpart found heq

/-- No conversion ends with an index that is not positive. -/
theorem failsWith_assignments (source : Source) :
    FailsWith ConversionFault.IsOfValue (assignments source) := by
  intro fault hfault
  unfold assignments at hfault
  split at hfault
  · nomatch hfault
  · rename_i draft found heq
    obtain rfl := Except.error.inj hfault
    exact isOfValue_of_runSections failsOnValues_of_mem sections_arranges_sectionTemplates heq

end GeoMetadata.Profile
