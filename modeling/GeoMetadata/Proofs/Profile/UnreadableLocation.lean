import GeoMetadata.Proofs.Profile.Arrangement
import GeoMetadata.Proofs.Profile.Convertible

/-!
# Locations that cannot be read

A location that is not well-known text is passed over: the section on it writes nothing and takes no
number, so that the run goes on as if the section were not there (`agree_runSections_append_cons`).
Drafts that differ in their events alone have the same future (`agree_runSections`), and the section
adds no more than events.

A location with curved parts is well-known text, and no shape is made of it either.  It is not
passed over but ends the conversion.
-/

namespace GeoMetadata.Profile

variable {source : Source} {draft other : Draft} {part : Section}

/-! ## Runs that differ in events -/

/-- The drafts have the same assignments and have reached the same numbers. -/
structure Draft.Agree (draft other : Draft) : Prop where
  assignments : draft.assignments = other.assignments
  progress : draft.progress = other.progress

/-- The outcomes of two runs agree: the drafts do, and the faults are the same, if there are any. -/
def Agree (outcome other : Draft × Option ConversionFault) : Prop :=
  outcome.1.Agree other.1 ∧ outcome.2 = other.2

theorem Draft.Agree.refl (draft : Draft) : draft.Agree draft := ⟨rfl, rfl⟩

/-- A section does the same to drafts that agree. -/
theorem Draft.Agree.extend (h : draft.Agree other) (part : Section) (source : Source) :
    (∃ fault, part.extend source draft = .error fault ∧ part.extend source other = .error fault) ∨
      ∃ next after, part.extend source draft = .ok next ∧ part.extend source other = .ok after ∧
        next.Agree after := by
  rw [Section.extend, Section.extend, h.progress]
  cases part.contribute source other.progress with
  | error fault => exact .inl ⟨fault, rfl, rfl⟩
  | ok given =>
      show (∃ fault, draft.add part.name given = _ ∧ other.add part.name given = _) ∨
        ∃ next after, draft.add part.name given = _ ∧ other.add part.name given = _ ∧ _
      rw [Draft.add, Draft.add, h.assignments]
      cases given.writes.mapM Write.assignment with
      | error fault => exact .inl ⟨_, rfl, rfl⟩
      | ok entries => exact .inr ⟨_, _, rfl, rfl, rfl, rfl⟩

/-- Runs from drafts that agree come to outcomes that agree. -/
theorem agree_runSections (h : draft.Agree other) (parts : List Section) :
    Agree (runSections source parts draft) (runSections source parts other) := by
  -- By the sections: drafts that agree meet the same fault, or go on in agreement.
  induction parts generalizing draft other with
  | nil => exact ⟨h, rfl⟩
  | cons part rest ih =>
      rw [runSections, runSections]
      rcases h.extend part source with
        ⟨fault, hdraft, hother⟩ | ⟨next, after, hdraft, hother, hagree⟩
      · rw [hdraft, hother]
        exact ⟨h, rfl⟩
      · rw [hdraft, hother]
        exact ih hagree

/-- The section adds nothing but events to any draft. -/
def Section.Passes (part : Section) (source : Source) : Prop :=
  ∀ draft, ∃ next, part.extend source draft = .ok next ∧ next.Agree draft

/-- A run comes out the same without a section that adds nothing but events. -/
theorem agree_runSections_append_cons (hpasses : part.Passes source) (before after : List Section) :
    Agree (runSections source (before ++ part :: after) draft)
      (runSections source (before ++ after) draft) := by
  induction before generalizing draft with
  | nil =>
      obtain ⟨next, hextend, hagree⟩ := hpasses draft
      rw [List.nil_append, runSections, hextend]
      exact agree_runSections hagree after
  | cons first rest ih =>
      rw [List.cons_append, runSections, List.cons_append, runSections]
      cases first.extend source draft with
      | error fault => exact ⟨.refl draft, rfl⟩
      | ok extended => exact ih

/-- The assignments that some sections come to from the beginning. -/
def assignmentsBy (parts : List Section) (source : Source) : Except ConversionFault Assignments :=
  let outcome := runSections source parts .start
  outcome.2.elim (.ok outcome.1.assignments) .error

theorem assignments_eq_assignmentsBy (source : Source) :
    assignments source = assignmentsBy sections source := by
  unfold assignments assignmentsBy run
  rcases runSections source sections .start with ⟨draft, fault | fault⟩ <;> rfl

theorem assignmentsBy_append_cons (hpasses : part.Passes source) (before after : List Section) :
    assignmentsBy (before ++ part :: after) source = assignmentsBy (before ++ after) source := by
  obtain ⟨hdraft, hfault⟩ := @agree_runSections_append_cons source .start part hpasses before after
  rw [assignmentsBy, assignmentsBy, hfault, hdraft.assignments]

/-! ## The section on the location -/

/-- The section on the location. -/
def locationSection : Section := ⟨"bounding_polygon", locationContribution⟩

/-- The sections without the one on the location. -/
def otherSections : List Section := sections.filter fun part => part.name ≠ locationSection.name

/-- The location of the source is passed over. -/
structure IsPassedOver (source : Source) (location : String) : Prop where
  /-- Whatever came before, there are no new assignments, no number is taken, and the location is
  remarked on. -/
  unchanged : ∀ draft, locationSection.extend source draft = .ok
    { draft with events := .sectionDone locationSection.name 0
        :: .remark (.unreadableLocation location) :: draft.events }
  /-- The conversion comes out as it does without the section. -/
  leftOut : assignments source = assignmentsBy otherSections source

variable {location : String}

theorem locationContribution_of_error {fault : WellKnownText.Fault}
    (hlocation : source.record.string? Attribute.location = some location) (hsome : location ≠ "")
    (hfault : WellKnownText.boundingBox location = .error fault) (progress : Progress) :
    (fault = .malformed → locationContribution source progress =
      .ok ⟨[], progress, [.unreadableLocation location]⟩) ∧
    (fault = .curved → locationContribution source progress = .error .curvedLocation) := by
  rw [locationContribution, filter_location_eq_some hlocation hsome]
  simp only [hfault]
  constructor
  · rintro rfl
    rfl
  · rintro rfl
    rfl

theorem isPassedOver_of_malformed
    (hlocation : source.record.string? Attribute.location = some location) (hsome : location ≠ "")
    (hmalformed : WellKnownText.boundingBox location = .error .malformed) :
    IsPassedOver source location := by
  have hunchanged (draft : Draft) : locationSection.extend source draft = .ok
      { draft with events := .sectionDone locationSection.name 0
          :: .remark (.unreadableLocation location) :: draft.events } := by
    have hgiven :=
      (locationContribution_of_error hlocation hsome hmalformed draft.progress).1 rfl
    refine bind_eq_ok_iff.mpr ⟨_, hgiven, add_eq_ok_iff.mpr ⟨[], rfl, ?_⟩⟩
    rw [OrderedMap.insertMany_nil, Nat.sub_self]
    rfl
  refine ⟨hunchanged, ?_⟩
  have hpasses : locationSection.Passes source := fun draft =>
    ⟨_, hunchanged draft, rfl, rfl⟩
  have hsections : sections = sections.take 19 ++ locationSection :: sections.drop 20 := rfl
  have hothers : otherSections = sections.take 19 ++ sections.drop 20 := rfl
  rw [assignments_eq_assignmentsBy, hothers, hsections]
  exact assignmentsBy_append_cons hpasses _ _

/-- A location that no shape is made of is passed over exactly if it is malformed.  If it is curved
instead, the section fails, and there are no assignments. -/
theorem unreadable_location_is_passed_over_iff {fault : WellKnownText.Fault}
    (hlocation : source.record.string? Attribute.location = some location) (hsome : location ≠ "")
    (hfault : WellKnownText.boundingBox location = .error fault) :
    (IsPassedOver source location ↔ fault = .malformed) ∧
      (fault = .curved → (∀ draft, locationSection.extend source draft = .error .curvedLocation) ∧
        ∀ tracker, assignments source ≠ .ok tracker) := by
  have hcurved (draft : Draft) (h : fault = .curved) :
      locationSection.extend source draft = .error .curvedLocation := by
    rw [Section.extend]
    show (locationContribution source draft.progress >>= _) = _
    rw [(locationContribution_of_error hlocation hsome hfault draft.progress).2 h]
    rfl
  refine ⟨⟨fun hpassed => ?_, ?_⟩, fun h => ⟨fun draft => hcurved draft h, fun tracker hok => ?_⟩⟩
  · cases fault with
    | malformed => rfl
    | curved =>
        have hfails := hcurved .start rfl
        rw [hpassed.unchanged] at hfails
        cases hfails
  · rintro rfl
    exact isPassedOver_of_malformed hlocation hsome hfault
  · -- Assignments would need a contribution of the section.
    obtain ⟨given, entries, hgiven, -⟩ := assignments_eq_ok_iff.mp hok
    have hsection : sections[19]? = some locationSection := rfl
    obtain ⟨before, own, after, progress, hown, -⟩ := exists_allWrites_split hsection hgiven
    have hfails := (locationContribution_of_error hlocation hsome hfault progress).2 h
    cases hown.symm.trans hfails

/-- The source of a record that has nothing but a location. -/
def locationSource (location : String) : Source :=
  sourceOf [(Attribute.location, [.text location])]

theorem unclosed_location_is_passed_over :
    WellKnownText.boundingBox "POLYGON ((0 0, 1 0, 1 1" = .error .malformed ∧
      IsPassedOver (locationSource "POLYGON ((0 0, 1 0, 1 1") "POLYGON ((0 0, 1 0, 1 1" := by
  have hfault : WellKnownText.boundingBox "POLYGON ((0 0, 1 0, 1 1" = .error .malformed := by
    decide +kernel
  exact ⟨hfault, (unreadable_location_is_passed_over_iff rfl (by decide) hfault).1.mpr rfl⟩

/-- No shape is made of an arc, and it is not passed over: it ends a conversion that goes through
without the section on the location. -/
theorem curved_location_is_not_passed_over :
    WellKnownText.boundingBox "CIRCULARSTRING (0 0, 1 1, 2 0)" = .error .curved ∧
      assignments (locationSource "CIRCULARSTRING (0 0, 1 1, 2 0)") = .error .curvedLocation ∧
      Succeeds (assignmentsBy otherSections (locationSource "CIRCULARSTRING (0 0, 1 1, 2 0)")) ∧
      ¬IsPassedOver (locationSource "CIRCULARSTRING (0 0, 1 1, 2 0)")
        "CIRCULARSTRING (0 0, 1 1, 2 0)" := by
  have hfails : assignments (locationSource "CIRCULARSTRING (0 0, 1 1, 2 0)") =
      .error .curvedLocation := eq_error_of_faultOf? (by decide +kernel)
  have hothers : Succeeds (assignmentsBy otherSections
      (locationSource "CIRCULARSTRING (0 0, 1 1, 2 0)")) := succeeds_of_faultOf? (by decide +kernel)
  refine ⟨by decide +kernel, hfails, hothers, fun hpassed => ?_⟩
  rw [← hpassed.leftOut, hfails] at hothers
  exact not_succeeds_error _ hothers

end GeoMetadata.Profile
