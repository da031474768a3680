import GeoMetadata.Document.Assembly
import GeoMetadata.Profile.ResourceSections

/-!
# Converting a record

A conversion runs the sections of the profile in a fixed order, which is the order of the
document.  It gives the assignments, and the events on the way: how many paths each section
added, and what was passed over.
-/

namespace GeoMetadata.Profile

/-- The sections in order. -/
def sections : List Section :=
  [.plain "namespaces" namespaceWrites,
    .plain "file_identifier" fileIdentifierWrites,
    .plain "language" languageWrites,
    .plain "character_set" characterSetWrites,
    .plain "hierarchy_level" hierarchyLevelWrites,
    .plain "contact" contactWrites,
    .checked "date_stamp" dateStampWrites,
    .plain "metadata_standard" standardWrites,
    .plain "crs" referenceSystemWrites,
    .checked "citation" citationWrites,
    .plain "abstract" abstractWrites,
    .plain "status" statusWrites,
    .plain "point_of_contact" pointOfContactWrites,
    .plain "descriptive_keywords" keywordWrites,
    .checked "resource_constraints" resourceConstraintWrites,
    .plain "aggregation_info" aggregationWrites,
    .plain "identification_language" resourceLanguageWrites,
    .plain "topic_categories" topicWrites,
    ⟨"geographic_identifier", fun source progress => .ok (countryContribution source progress)⟩,
    ⟨"bounding_polygon", locationContribution⟩,
    ⟨"temporal_elements", temporalContribution⟩,
    .checked "vertical_element" verticalWrites,
    .checked "image_description" imageWrites,
    .plain "distribution_info" distributionWrites,
    .checked "metadata_constraints" metadataConstraintWrites]

/-- The names of the sections in order. -/
def sectionNames : List String := sections.map Section.name

/-- Something that happens in the course of a conversion. -/
inductive Event where
  | remark (remark : Remark)
  /-- A section is done, with so many new paths. -/
  | sectionDone (name : String) (added : Nat)
  deriving DecidableEq, Repr

/-- What a conversion has come to: the assignments so far, the numbers reached, and the
events, the last of them first. -/
structure Draft where
  assignments : Assignments
  progress : Progress
  events : List Event

/-- The draft before the first section. -/
def Draft.start : Draft := ⟨.empty, ⟨0, 0⟩, []⟩

/-- The draft with what a section gives: the writes of a contribution become assignments. -/
def Draft.add (draft : Draft) (name : String) (part : Contribution) :
    Except ConversionFault Draft :=
  match part.writes.mapM Write.assignment with
  | .error fault => .error (.integer fault)
  | .ok entries =>
    let assignments := draft.assignments.insertMany entries
    .ok
      { assignments := assignments
        progress := part.progress
        events := .sectionDone name (assignments.size - draft.assignments.size)
          :: (part.remarks.map Event.remark).reverse ++ draft.events }

/-- The draft once a section is added to it. -/
def Section.extend (part : Section) (source : Source) (draft : Draft) :
    Except ConversionFault Draft := do
  draft.add part.name (← part.contribute source draft.progress)

/-- Runs some sections on a draft. The draft reached is given also if a section fails. -/
def runSections (source : Source) : List Section → Draft → Draft × Option ConversionFault
  | [], draft => (draft, none)
  | part :: rest, draft =>
    match part.extend source draft with
    | .ok extended => runSections source rest extended
    | .error fault => (draft, some fault)

/-- Runs all sections. -/
def run (source : Source) : Draft × Option ConversionFault := runSections source sections .start

/-- The assignments of a document. -/
def assignments (source : Source) : Except ConversionFault Assignments :=
  match run source with
  | (draft, none) => .ok draft.assignments
  | (_, some fault) => .error fault

end GeoMetadata.Profile
