import GeoMetadata.Profile.RecordSections

/-!
# The sections about the resource

The sections on the citation of the resource, its description and its extent.
-/

namespace GeoMetadata.Profile

open GeoMetadata.Path (Template)

/-! ## The citation -/

/-- A kind of date in a citation: the attribute that holds it, its code and its text. -/
structure DateKind where
  name : String
  code : String
  label : String
  deriving DecidableEq, Repr

/-- The kinds of dates, in order. -/
def dateKinds : List DateKind :=
  [⟨Attribute.modified, "lastUpdate", "LastUpdate"⟩, ⟨Attribute.created, "creation", "Creation"⟩,
    ⟨Attribute.expiration, "expiry", "Expiry"⟩,
    ⟨Attribute.publishedDate, "publication", "Publication"⟩]

/-- The dates that a record has, with their kinds. -/
def citationDates (record : Record) : List (DateKind × Time.DateTime) :=
  dateKinds.filterMap fun kind => (record.moment? kind.name).map fun date => (kind, date)

/-- A date with its kind, at its place in the citation. -/
def citationDateWrites (index : Nat) (kind : DateKind) (text : String) : List Write :=
  [⟨Layout.citationDateValue, index, text⟩,
    ⟨Layout.citationDateType.codeListValue, index, kind.code⟩,
    ⟨Layout.citationDateType.codeList, index, dateTypeList⟩,
    ⟨Layout.citationDateType.text, index, kind.label⟩]

/-- The name is there and is not blank. -/
def isNamed (name : Option String) : Bool := name.any fun text => !Text.allBlank text

/-- The name of the source: that of the system, or else the source of the record. -/
def sourceName? (source : Source) : Option String :=
  (if isNamed source.systemName then source.systemName else source.record.sourceId).filter
    fun text => !Text.allBlank text

/-- The identifiers of the resource with their code spaces. -/
def citationIdentifiers (source : Source) : List (String × String) :=
  let identifier := (source.record.string? Attribute.id).map formatIdentifier
  (identifier.toList.map fun code => (code, "UUID"))
    ++ (identifier.toList.map fun code => (code, "sourceSystemId"))
    ++ ((sourceName? source).toList.map fun code => (code, "sourceSystemName"))

/-- The citation: the title, which may be empty, the dates, the edition and the identifiers. -/
def citationWrites (source : Source) : Except ConversionFault (List Write) := do
  let record := source.record
  let dates ← (citationDates record).mapM fun (kind, date) => do .ok (kind, ← dateText date)
  let edition ← (record.moment? Attribute.created).mapM dateText
  .ok ([.only Layout.title ((record.string? Attribute.title).getD "")]
    ++ (dates.zipIdx 1).flatMap (fun ((kind, text), index) => citationDateWrites index kind text)
    ++ optional Layout.editionDate edition
    ++ ((citationIdentifiers source).zipIdx 1).flatMap fun ((code, codeSpace), index) =>
      identifierWrites Layout.citationIdentifier index code codeSpace)

/-! ## The description -/

/-- The abstract, which may be empty. -/
def abstractWrites (source : Source) : List Write :=
  [.only Layout.abstract ((source.record.string? Attribute.description).getD "")]

/-- The status of the resource: the default one if the attribute is missing, and none if it
has no text. -/
def status? (record : Record) : Option String :=
  if record.has Attribute.resourceStatus then
    (record.string? Attribute.resourceStatus).filter (· ≠ "")
  else some defaultStatus

/-- The status, which is its own text. -/
def statusWrites (source : Source) : List Write :=
  match status? source.record with
  | none => []
  | some status =>
    [.only Layout.status.codeListValue status, .only Layout.status.codeList progressList,
      .only Layout.status.text status]

/-- The point of contact, in the role of the originator. -/
def pointOfContactWrites (source : Source) : List Write :=
  partyWrites Layout.pointOfContact Attribute.pointOfContact "originator" "Originator"
    source.record

/-- The keywords, or an empty element. -/
def keywordWrites (source : Source) : List Write :=
  match source.record.strings Attribute.keyword with
  | [] => [.only Layout.keywords ""]
  | keywords => each Layout.keyword keywords

/-- The collection that the resource belongs to. -/
def aggregationWrites (source : Source) : List Write :=
  match source.record.string? Attribute.metacardRelated with
  | none => []
  | some related =>
    identifierWrites Layout.related 1 (formatIdentifier related) relatedCodeSpace
      ++ codeWrites Layout.associationType 1
        ⟨associationTypeList, "mediaAssociation", "Media Association"⟩

/-- The languages of the resource, or the default one. -/
def resourceLanguages (source : Source) : List String :=
  match source.record.strings Attribute.language with
  | [] => [source.settings.defaultLanguage]
  | languages => languages

/-- The language of the resource. -/
def resourceLanguageWrites (source : Source) : List Write :=
  let languages := resourceLanguages source
  each Layout.resourceLanguage.codeList (languages.map fun _ => languageList)
    ++ each Layout.resourceLanguage.codeListValue languages
    ++ each Layout.resourceLanguage.text (languages.map languageName)

/-- The topics, or an empty element. -/
def topicWrites (source : Source) : List Write :=
  match source.record.strings Attribute.topicCategory with
  | [] => [.only Layout.noTopicCategory ""]
  | topics => each Layout.topicCategory topics

/-! ## The extent -/

/-- The countries, each of which is a geographic element. -/
def countryContribution (source : Source) (progress : Progress) : Contribution :=
  let countries := source.record.strings Attribute.countryCode
  let first := progress.geographic + 1
  { writes := eachFrom first Layout.country.code countries
      ++ eachFrom first Layout.country.codeSpace (countries.map fun _ => countryCodeSpace)
    progress := { progress with geographic := progress.geographic + countries.length }
    remarks := [] }

/-- The bounds of a box without numbers. -/
def emptyBoundWrites (index : Nat) : List Write :=
  Layout.bounds.map fun bound => ⟨bound, index, ""⟩

/-- The bounds of a box. -/
def boundWrites (index : Nat) (bounds : List Number.Binary64) : List Write :=
  (Layout.bounds.zip bounds).map fun (bound, x) =>
    ⟨Layout.boundNumber bound, index, boundText x⟩

/-- A bounding polygon with its id, and the bounding box after it if there is one. -/
def boundingBoxContribution (source : Source) (progress : Progress) (box : BoundingBox) :
    Contribution :=
  let index := progress.geographic + 1
  let polygon : List Write :=
    [⟨Layout.polygonId, index, source.gmlId (progress.ids + 1)⟩,
      ⟨Layout.polygonSrsName, index, source.settings.gmlSrsName⟩,
      ⟨Layout.polygonPositions, index, box.positionList⟩]
  match box.bounds? with
  | none => ⟨polygon, ⟨progress.geographic + 1, progress.ids + 1⟩, []⟩
  | some bounds =>
    ⟨polygon ++ boundWrites (index + 1) bounds, ⟨progress.geographic + 2, progress.ids + 1⟩, []⟩

/-- The location: a polygon and a box, or an empty box if there is no location. A location
that cannot be read is passed over. -/
def locationContribution (source : Source) (progress : Progress) :
    Except ConversionFault Contribution :=
  match (source.record.string? Attribute.location).filter (· ≠ "") with
  | none => .ok ⟨emptyBoundWrites (progress.geographic + 1), progress, []⟩
  | some location =>
    match WellKnownText.boundingBox location with
    | .ok box => .ok (boundingBoxContribution source progress box)
    | .error .malformed => .ok ⟨[], progress, [.unreadableLocation location]⟩
    | .error .curved => .error .curvedLocation

/-- A temporal extent: an instant or a period, with an id. -/
def extentWrites (gmlId : String) (extent : TemporalExtent) : List Write :=
  if extent.isInstant then
    [⟨Layout.instantId, extent.index, gmlId⟩,
      ⟨Layout.instantPosition, extent.index, extent.start⟩]
  else
    [⟨Layout.periodId, extent.index, gmlId⟩, ⟨Layout.periodBegin, extent.index, extent.start⟩,
      ⟨Layout.periodEnd, extent.index, extent.end⟩]

/-- The temporal extents. -/
def temporalContribution (source : Source) (progress : Progress) :
    Except ConversionFault Contribution := do
  let starts ← dateTexts (source.record.moments Attribute.start)
  let ends ← dateTexts (source.record.moments Attribute.end)
  let extents := pairExtents starts ends
  .ok
    { writes := extents.flatMap fun extent =>
        extentWrites (source.gmlId (progress.ids + extent.index)) extent
      progress := { progress with ids := progress.ids + extents.length }
      remarks := if starts.length = ends.length then []
        else [.unpairedExtents starts.length ends.length] }

/-- The least and the greatest altitude. -/
def verticalWrites (source : Source) : Except ConversionFault (List Write) :=
  match source.record.numbers? Attribute.altitude with
  | none => .error .numberTooLarge
  | some altitudes =>
    match Number.Binary64.least? altitudes, Number.Binary64.greatest? altitudes with
    | some least, some greatest =>
      .ok [.only Layout.minimumAltitude (decimalText least),
        .only Layout.maximumAltitude (decimalText greatest),
        .only Layout.verticalCrsHref verticalCrsHref,
        .only Layout.verticalCrsTitle verticalCrsTitle]
    | _, _ => .ok []

end GeoMetadata.Profile
