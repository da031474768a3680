import GeoMetadata.Path.Template

/-!
# The layout of the profile's documents

The paths of the elements and attributes of a document, as templates below the root.  Names
without prefix are in the default namespace.
-/

namespace GeoMetadata.Profile.Layout

open GeoMetadata.Path (Template)

/-- The name of the root. -/
def rootName : String := "MD_Metadata"

/-- The template of an attribute of the element of a template. -/
def attr (template : Template) (name : String) : Template := template ++ [.attr name]

/-- The template that leads through single elements from the element of a template. -/
def down (template : Template) (names : List String) : Template :=
  template ++ names.map .single

/-- The template of the text that an element is given as. -/
def text (template : Template) : Template := down template ["gco:CharacterString"]

/-- The root. -/
def root : Template := [.single rootName]

/-! ## Elements that several parts share -/

/-- The places of a code: its list, its value and its text. -/
structure CodePlaces where
  codeList : Template
  codeListValue : Template
  text : Template

/-- The places of the code that an element holds. -/
def codeAt (template : Template) : CodePlaces where
  codeList := attr template "codeList"
  codeListValue := attr template "codeListValue"
  text := template

/-- The places of an identifier: its code and its code space. -/
structure IdentifierPlaces where
  code : Template
  codeSpace : Template

/-- The places of the identifier below an element. -/
def identifierAt (template : Template) : IdentifierPlaces where
  code := text (down template ["RS_Identifier", "code"])
  codeSpace := text (down template ["RS_Identifier", "codeSpace"])

/-- The places of a responsible party. -/
structure PartyPlaces where
  organisation : Template
  phone : Template
  address : Template
  email : Template
  role : CodePlaces

/-- The places of the party below an element. -/
def partyAt (template : Template) : PartyPlaces :=
  let party := down template ["CI_ResponsibleParty"]
  let contact := down party ["contactInfo", "CI_Contact"]
  let address := down contact ["address", "CI_Address"]
  { organisation := text (down party ["organisationName"])
    phone := text (down contact ["phone", "CI_Telephone"] ++ [.repeated "voice"])
    address := text (address ++ [.repeated "deliveryPoint"])
    email := text (address ++ [.repeated "electronicMailAddress"])
    role := codeAt (down party ["role", "CI_RoleCode"]) }

/-- The places of a security block. -/
structure SecurityPlaces where
  classification : CodePlaces
  originatorClassification : CodePlaces
  caveat : Template

/-- The places of the security block below an element. -/
def securityAt (template : Template) : SecurityPlaces :=
  let block := down template ["mgmp:MGMP_SecurityConstraints"]
  { classification := codeAt (down block ["classification", "MD_ClassificationCode"])
    originatorClassification :=
      codeAt (down block ["mgmp:originatorClassification", "MD_ClassificationCode"])
    caveat := text (down block ["mgmp:caveat"]) }

/-! ## The record -/

def fileIdentifier : Template := text (down root ["fileIdentifier"])
def language : CodePlaces := codeAt (down root ["language", "LanguageCode"])
def characterSet : CodePlaces := codeAt (down root ["characterSet", "MD_CharacterSetCode"])
def hierarchyLevel : CodePlaces := codeAt (down root ["hierarchyLevel", "MD_ScopeCode"])
def contact : PartyPlaces := partyAt (down root ["contact"])
def dateStamp : Template := down root ["dateStamp", "gco:DateTime"]
def standardName : Template := text (down root ["metadataStandardName"])
def standardVersion : Template := text (down root ["metadataStandardVersion"])

/-- The reference systems. -/
def referenceSystem : IdentifierPlaces :=
  identifierAt (down (root ++ [.repeated "referenceSystemInfo"])
    ["MD_ReferenceSystem", "referenceSystemIdentifier"])

/-! ## The identification -/

/-- The identification of the resource. -/
def identification : Template := down root ["identificationInfo", "MD_DataIdentification"]

/-- The citation of the resource. -/
def citation : Template := down identification ["citation", "CI_Citation"]

def title : Template := text (down citation ["title"])

/-- The dates of the citation. -/
def citationDate : Template := down (citation ++ [.repeated "date"]) ["CI_Date"]

def citationDateValue : Template := down citationDate ["date", "gco:DateTime"]
def citationDateType : CodePlaces := codeAt (down citationDate ["dateType", "CI_DateTypeCode"])
def editionDate : Template := down citation ["editionDate", "gco:DateTime"]
def citationIdentifier : IdentifierPlaces := identifierAt (citation ++ [.repeated "identifier"])
def abstract : Template := text (down identification ["abstract"])
def status : CodePlaces := codeAt (down identification ["status", "MD_ProgressCode"])
def pointOfContact : PartyPlaces := partyAt (down identification ["pointOfContact"])
def keywords : Template := down identification ["descriptiveKeywords"]
def keyword : Template := text (down keywords ["MD_Keywords"] ++ [.repeated "keyword"])

/-- The constraints of the resource. -/
def resourceConstraints : Template := identification ++ [.repeated "resourceConstraints"]

def resourceSecurity : SecurityPlaces := securityAt resourceConstraints

def useLimitation : Template :=
  text (down resourceConstraints ["MD_Constraints", "useLimitation"])

def otherConstraints : Template :=
  text (down resourceConstraints ["MD_LegalConstraints", "otherConstraints"])

/-- The collection that the resource belongs to. -/
def aggregation : Template := down identification ["aggregationInfo", "MD_AggregateInformation"]

def related : IdentifierPlaces := identifierAt (down aggregation ["aggregateDataSetIdentifier"])

def associationType : CodePlaces :=
  codeAt (down aggregation ["associationType", "DS_AssociationTypeCode"])

def resourceLanguage : CodePlaces :=
  codeAt (down (identification ++ [.repeated "language"]) ["LanguageCode"])

def noTopicCategory : Template := down identification ["topicCategory"]

def topicCategory : Template :=
  down (identification ++ [.repeated "topicCategory"]) ["MD_TopicCategoryCode"]

/-! ## The extent -/

/-- The extent of the resource. -/
def extent : Template := down identification ["extent", "EX_Extent"]

/-- The geographic elements of the extent. -/
def geographicElement : Template := extent ++ [.repeated "geographicElement"]

def country : IdentifierPlaces :=
  identifierAt (down geographicElement ["EX_GeographicDescription", "geographicIdentifier"])

/-- The bounding polygon. -/
def polygon : Template := down geographicElement ["EX_BoundingPolygon", "polygon", "gml:Polygon"]

def polygonId : Template := attr polygon "gml:id"
def polygonSrsName : Template := attr polygon "srsName"

def polygonPositions : Template :=
  down polygon ["gml:exterior", "gml:LinearRing", "gml:posList"]

/-- The bounds of the bounding box, without their numbers: west, east, south and north. -/
def bounds : List Template :=
  ["westBoundLongitude", "eastBoundLongitude", "southBoundLatitude", "northBoundLatitude"].map
    fun name => down geographicElement ["EX_GeographicBoundingBox", name]

/-- The number of a bound. -/
def boundNumber (bound : Template) : Template := down bound ["gco:Decimal"]

/-- The temporal extents. -/
def temporal : Template :=
  down (extent ++ [.repeated "temporalElement"]) ["EX_TemporalExtent", "extent"]

def instantId : Template := attr (down temporal ["gml:TimeInstant"]) "gml:id"
def instantPosition : Template := down temporal ["gml:TimeInstant", "gml:timePosition"]
def periodId : Template := attr (down temporal ["gml:TimePeriod"]) "gml:id"
def periodBegin : Template := down temporal ["gml:TimePeriod", "gml:beginPosition"]
def periodEnd : Template := down temporal ["gml:TimePeriod", "gml:endPosition"]

/-- The vertical extent. -/
def vertical : Template := down extent ["verticalElement", "EX_VerticalExtent"]

def minimumAltitude : Template := down vertical ["minimumValue", "gco:Real"]
def maximumAltitude : Template := down vertical ["maximumValue", "gco:Real"]
def verticalCrsHref : Template := attr (down vertical ["verticalCRS"]) "xlink:href"
def verticalCrsTitle : Template := attr (down vertical ["verticalCRS"]) "xlink:title"

/-! ## The content and its distribution -/

/-- The description of an image. -/
def image : Template := down root ["contentInfo", "mgmp:MGMP_ImageDescription"]

def imageComment : Template := down image ["attributeDescription", "gco:RecordType"]

def imageCommentNilReason : Template :=
  attr (down image ["attributeDescription"]) "gco:nilReason"

def imageContentType : CodePlaces :=
  codeAt (down image ["contentType", "MD_CoverageContentTypeCode"])

def imageQuality : IdentifierPlaces := identifierAt (down image ["imageQualityCode"])
def cloudCover : Template := down image ["cloudCoverPercentage", "gco:Real"]

/-- The distribution of the resource. -/
def distribution : Template := down root ["distributionInfo", "MD_Distribution"]

def formatName : Template := text (down distribution ["distributionFormat", "MD_Format", "name"])

def formatVersion : Template :=
  text (down distribution ["distributionFormat", "MD_Format", "version"])

def linkage : Template :=
  down distribution
    ["transferOptions", "MD_DigitalTransferOptions", "onLine", "CI_OnlineResource", "linkage",
      "URL"]

/-- The constraints of the metadata. -/
def metadataConstraints : Template := down root ["metadataConstraints"]

def metadataSecurity : SecurityPlaces := securityAt metadataConstraints

end GeoMetadata.Profile.Layout
