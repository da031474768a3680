import GeoMetadata.Profile.Conversion
import GeoMetadata.Proofs.Document.Order
import GeoMetadata.Proofs.Xml.Naming

/-!
# The contract of the profile

The contract of an element lists the names of its children in order, with the names of those that
may be repeated (`contract`).  `sectionTemplates` lists, section by section, the templates that a
document is made of.  Three facts about these tables carry what is said about all documents, and
they are decided by looking through the tables:

* `isProper_of_mem`: the paths of the templates can be read, and they start at the root;
* `fits_of_mem`: no template leaves the contract;
* `precedes_of_sections`: what a section writes comes before what later sections write.

Within a section the order depends on how the section numbers its writes, and is proved along
with the section.
-/

namespace GeoMetadata.Profile

open GeoMetadata.Path (Template)

/-! ## Contracts -/

/-- A place for children of one name in the contract of an element. -/
structure Slot where
  name : String
  repeatable : Bool
  deriving DecidableEq, Repr

/-- The slot of one child. -/
def one (name : String) : Slot := ⟨name, false⟩

/-- The slot of any number of children. -/
def many (name : String) : Slot := ⟨name, true⟩

/-- The contracts of the elements that have children of more than one name, or many children. -/
def contract : List (String × List Slot) :=
  [("MD_Metadata",
      [one "fileIdentifier", one "language", one "characterSet", one "hierarchyLevel",
        one "contact", one "dateStamp", one "metadataStandardName",
        one "metadataStandardVersion", many "referenceSystemInfo", one "identificationInfo",
        one "contentInfo", one "distributionInfo", one "metadataConstraints"]),
    ("MD_DataIdentification",
      [one "citation", one "abstract", one "status", one "pointOfContact",
        one "descriptiveKeywords", many "resourceConstraints", one "aggregationInfo",
        many "language", many "topicCategory", one "extent"]),
    ("CI_Citation", [one "title", many "date", one "editionDate", many "identifier"]),
    ("CI_Date", [one "date", one "dateType"]),
    ("RS_Identifier", [one "code", one "codeSpace"]),
    ("CI_ResponsibleParty", [one "organisationName", one "contactInfo", one "role"]),
    ("CI_Contact", [one "phone", one "address"]),
    ("CI_Telephone", [many "voice"]),
    ("CI_Address", [many "deliveryPoint", many "electronicMailAddress"]),
    ("MD_Keywords", [many "keyword"]),
    ("resourceConstraints",
      [one "mgmp:MGMP_SecurityConstraints", one "MD_Constraints", one "MD_LegalConstraints"]),
    ("mgmp:MGMP_SecurityConstraints",
      [one "classification", one "mgmp:originatorClassification", one "mgmp:caveat"]),
    ("MD_AggregateInformation", [one "aggregateDataSetIdentifier", one "associationType"]),
    ("EX_Extent", [many "geographicElement", many "temporalElement", one "verticalElement"]),
    ("geographicElement",
      [one "EX_GeographicDescription", one "EX_BoundingPolygon", one "EX_GeographicBoundingBox"]),
    ("EX_GeographicBoundingBox",
      [one "westBoundLongitude", one "eastBoundLongitude", one "southBoundLatitude",
        one "northBoundLatitude"]),
    ("extent", [one "EX_Extent", one "gml:TimeInstant", one "gml:TimePeriod"]),
    ("gml:TimePeriod", [one "gml:beginPosition", one "gml:endPosition"]),
    ("EX_VerticalExtent", [one "minimumValue", one "maximumValue", one "verticalCRS"]),
    ("mgmp:MGMP_ImageDescription",
      [one "attributeDescription", one "contentType", one "imageQualityCode",
        one "cloudCoverPercentage"]),
    ("MD_Distribution", [one "distributionFormat", one "transferOptions"]),
    ("MD_Format", [one "name", one "version"])]

/-- The names of the children of an element in the order of its contract. -/
def childNames (parent : String) : List String :=
  ((entryValue? parent contract).getD []).map Slot.name

/-- The position of a name among the children of an element. -/
def rank (parent name : String) : Nat := (childNames parent).idxOf name

/-- The names are those of the slots in order, each as often as it occurs, and only repeatable ones
more than once. -/
def Follows (slots : List Slot) (names : List String) : Prop :=
  names = slots.flatMap (fun slot => List.replicate (names.count slot.name) slot.name) ∧
    ∀ slot ∈ slots, slot.repeatable = false → names.count slot.name ≤ 1

/-- A place leads from an element through children that are in its contract, if it has one, and so
on; a child that is not repeatable is the first. -/
def Fits : String → List Segment → Prop
  | parent, .element name index :: rest =>
    (∀ slots, entryValue? parent contract = some slots →
      ∃ slot ∈ slots, slot.name = name ∧ (slot.repeatable = false → index = 1)) ∧ Fits name rest
  | _, _ => True

/-- The places of a template fit the contracts. -/
def fits : String → Template → Bool
  | parent, .single name :: rest =>
    ((entryValue? parent contract).all fun slots => slots.any (·.name = name)) && fits name rest
  | parent, .repeated name :: rest =>
    ((entryValue? parent contract).all fun slots => slots.any (· = many name)) && fits name rest
  | _, _ => true

theorem fits_segments {parent : String} {template : Template} (h : fits parent template = true)
    (index : Nat) : Fits parent (template.segments index) := by
  induction template generalizing parent with
  | nil => trivial
  | cons segment rest ih =>
      rw [Template.segments_cons]
      cases segment with
      | single name =>
          rw [fits, Bool.and_eq_true] at h
          refine ⟨fun slots hslots => ?_, ih h.2⟩
          rw [hslots, Option.all_some, List.any_eq_true] at h
          obtain ⟨⟨slot, hslot, hname⟩, -⟩ := h
          exact ⟨slot, hslot, of_decide_eq_true hname, fun _ => rfl⟩
      | «repeated» name =>
          rw [fits, Bool.and_eq_true] at h
          refine ⟨fun slots hslots => ?_, ih h.2⟩
          rw [hslots, Option.all_some, List.any_eq_true] at h
          obtain ⟨⟨slot, hslot, heq⟩, -⟩ := h
          obtain rfl := of_decide_eq_true heq
          exact ⟨_, hslot, rfl, fun h => nomatch h⟩
      | attr name => trivial

/-! ## The templates of the sections -/

/-- The templates of a code, in the order of writing. -/
def codeTemplates (places : Layout.CodePlaces) : List Template :=
  [places.codeList, places.codeListValue, places.text]

def identifierTemplates (places : Layout.IdentifierPlaces) : List Template :=
  [places.code, places.codeSpace]

def partyTemplates (places : Layout.PartyPlaces) : List Template :=
  [places.organisation, places.phone, places.address, places.email] ++ codeTemplates places.role

def securityTemplates (places : Layout.SecurityPlaces) : List Template :=
  codeTemplates places.classification ++ codeTemplates places.originatorClassification
    ++ [places.caveat]

/-- The templates that each section writes to. -/
def sectionTemplates : List (List Template) :=
  [namespaces.map fun (name, _) => Layout.attr Layout.root name,
    [Layout.fileIdentifier],
    codeTemplates Layout.language,
    codeTemplates Layout.characterSet,
    [Layout.hierarchyLevel.codeListValue, Layout.hierarchyLevel.codeList],
    partyTemplates Layout.contact,
    [Layout.dateStamp],
    [Layout.standardName, Layout.standardVersion],
    identifierTemplates Layout.referenceSystem,
    [Layout.title]
      ++ [Layout.citationDateValue, Layout.citationDateType.codeListValue,
        Layout.citationDateType.codeList, Layout.citationDateType.text]
      ++ [Layout.editionDate] ++ identifierTemplates Layout.citationIdentifier,
    [Layout.abstract],
    [Layout.status.codeListValue, Layout.status.codeList, Layout.status.text],
    partyTemplates Layout.pointOfContact,
    [Layout.keywords, Layout.keyword],
    securityTemplates Layout.resourceSecurity ++ [Layout.useLimitation, Layout.otherConstraints],
    identifierTemplates Layout.related ++ codeTemplates Layout.associationType,
    codeTemplates Layout.resourceLanguage,
    [Layout.noTopicCategory, Layout.topicCategory],
    identifierTemplates Layout.country,
    [Layout.polygonId, Layout.polygonSrsName, Layout.polygonPositions]
      ++ Layout.bounds.map Layout.boundNumber ++ Layout.bounds,
    [Layout.instantId, Layout.instantPosition, Layout.periodId, Layout.periodBegin,
      Layout.periodEnd],
    [Layout.minimumAltitude, Layout.maximumAltitude, Layout.verticalCrsHref,
      Layout.verticalCrsTitle],
    [Layout.imageComment, Layout.imageCommentNilReason]
      ++ [Layout.imageContentType.text, Layout.imageContentType.codeList,
        Layout.imageContentType.codeListValue]
      ++ identifierTemplates Layout.imageQuality ++ [Layout.cloudCover],
    [Layout.formatName, Layout.formatVersion, Layout.linkage],
    securityTemplates Layout.metadataSecurity]

/-- The templates of a document. -/
def documentTemplates : List Template := sectionTemplates.flatten

/-- The templates of the sections after the namespaces. -/
def elementTemplates : List Template := sectionTemplates.tail.flatten

/-- The prefixes that the root declares. -/
def prefixes : List String := ["gco", "mgmp", "gml", "xlink"]

/-- All names are names of XML with prefixes of the root. -/
theorem isQualifiedName_of_mem {template : Template} (h : template ∈ elementTemplates) :
    ∀ segment ∈ template, Xml.isQualifiedName prefixes segment.name = true := by
  have hall : ∀ template ∈ elementTemplates, ∀ segment ∈ template,
      Xml.isQualifiedName prefixes segment.name = true := by decide +kernel
  exact hall template h

/-- The characters of XML names have no meaning in paths. -/
theorem isPlainName_of_isQualifiedName {name : String}
    (h : Xml.isQualifiedName prefixes name = true) : Path.isPlainName name = true := by
  have hspecial : ∀ special ∈ ['[', ']', '@', '/', '%'], Xml.isNameCharacter special = false ∧
      ∀ declared ∈ prefixes, special ∉ declared.toList := by
    refine List.forall_iff_forall_mem.mp ?_
    decide
  have hchars : ∀ c ∈ name.toList, c ∉ ['[', ']', '@', '/', '%'] := by
    intro c hc hmem
    obtain ⟨hother, hfree⟩ := hspecial c hmem
    -- A character of the name is one of a local name, the colon or one of a prefix.
    rcases Xml.mem_of_isQualifiedName h c hc with hname | rfl | ⟨declared, hdeclared, hc⟩
    · rw [hother] at hname
      nomatch hname
    · revert hmem
      decide
    · exact hfree declared hdeclared hc
  have hnonempty : name ≠ "" := by
    rintro rfl
    revert h
    decide
  rw [Path.isPlainName, Bool.and_eq_true, bne_iff_ne, List.all_eq_true]
  refine ⟨hnonempty, fun c hc => ?_⟩
  have hfree := hchars c hc
  simp only [List.mem_cons, List.not_mem_nil, or_false, not_or] at hfree
  simp [Path.isNameChar, hfree]

theorem isProper_of_mem {template : Template} (h : template ∈ documentTemplates) :
    template.IsProper ∧ template.head? = some (.single Layout.rootName) := by
  have hshaped : ∀ template ∈ documentTemplates,
      template.isShaped = true ∧ template.head? = some (.single Layout.rootName) := by
    decide +kernel
  -- Declarations have the prefix `xmlns`, which the root does not declare.
  have hnamespaces : ∀ template ∈ namespaces.map fun (name, _) => Layout.attr Layout.root name,
      ∀ segment ∈ template, Path.isPlainName segment.name = true := by decide +kernel
  refine ⟨⟨(hshaped template h).1, ?_⟩, (hshaped template h).2⟩
  have hsplit : documentTemplates =
      (namespaces.map fun (name, _) => Layout.attr Layout.root name) ++ elementTemplates := rfl
  rw [hsplit, List.mem_append] at h
  rcases h with h | h
  · exact hnamespaces template h
  · exact fun segment hsegment =>
      isPlainName_of_isQualifiedName (isQualifiedName_of_mem h segment hsegment)

theorem fits_of_mem {template : Template} (h : template ∈ documentTemplates) :
    fits "" template = true := by
  have hall : ∀ template ∈ documentTemplates, fits "" template = true := by decide +kernel
  exact hall template h

/-- What a section writes comes before what later sections write. -/
theorem precedes_of_sections :
    sectionTemplates.Pairwise fun first second =>
      ∀ t ∈ first, ∀ u ∈ second, Template.precedes rank "" t u = true := by
  decide +kernel

end GeoMetadata.Profile
