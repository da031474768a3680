import GeoMetadata.Profile.Section

/-!
# The sections about the record and its handling

The sections on the record itself, on the content of an image, on the distribution and on the
constraints of the resource and of the metadata.
-/

namespace GeoMetadata.Profile

open GeoMetadata.Path (Template)

/-! ## The record -/

/-- The declarations of the namespaces. -/
def namespaceWrites (_ : Source) : List Write :=
  namespaces.map fun (name, uri) => .only (Layout.attr Layout.root name) uri

/-- The identifier of the record, which is empty if there is none. -/
def fileIdentifierWrites (source : Source) : List Write :=
  let identifier := (source.record.string? Attribute.id).getD ""
  [.only Layout.fileIdentifier (formatIdentifier identifier)]

/-- The language of the record: its own, if it is not empty, or the default one. -/
def recordLanguage (source : Source) : String :=
  match source.record.string? Attribute.language with
  | some language => if language = "" then source.settings.defaultLanguage else language
  | none => source.settings.defaultLanguage

/-- The language of the record. -/
def languageWrites (source : Source) : List Write :=
  let language := Text.lower (recordLanguage source)
  codeWrites Layout.language 1 ⟨languageList, language, languageName language⟩

/-- The character set, which is the same for all records. -/
def characterSetWrites (_ : Source) : List Write :=
  codeWrites Layout.characterSet 1 ⟨characterSetList, "utf8", "UTF-8"⟩

/-- The level of the record, which has no text. -/
def hierarchyLevelWrites (_ : Source) : List Write :=
  [.only Layout.hierarchyLevel.codeListValue "dataset",
    .only Layout.hierarchyLevel.codeList scopeList]

/-- A party with its ways of contact and its role. -/
def partyWrites (places : Layout.PartyPlaces) (party : Attribute.Party) (role label : String)
    (record : Record) : List Write :=
  optional places.organisation (record.string? party.name)
    ++ each places.phone (record.strings party.phone)
    ++ each places.address (record.strings party.address)
    ++ each places.email (record.strings party.email)
    ++ codeWrites places.role 1 ⟨roleList, role, label⟩

/-- The publisher, in the role of the point of contact. -/
def contactWrites (source : Source) : List Write :=
  partyWrites Layout.contact Attribute.publisher "pointOfContact" "Point of Contact" source.record

/-- The date of the record: that of its last change, or else of its creation, or else the
present. -/
def stampDate (source : Source) : Time.DateTime :=
  ((source.record.moment? Attribute.metacardModified)
    <|> (source.record.moment? Attribute.metacardCreated)).getD source.now

/-- The stamp of the record. -/
def dateStampWrites (source : Source) : Except ConversionFault (List Write) := do
  .ok [.only Layout.dateStamp (← dateText (stampDate source))]

/-- The standard that the document follows, and its version. -/
def standardWrites (_ : Source) : List Write :=
  [.only Layout.standardName standardName, .only Layout.standardVersion standardVersion]

/-- The authority and the code of a reference system, which stand around the only colon. -/
def referenceSystem? (text : String) : Option (String × String) :=
  match Text.splitAt ':' text.toList with
  | [authority, code] =>
    if authority = [] ∨ code = [] then none
    else some (String.ofList authority, String.ofList code)
  | _ => none

/-- The reference systems of the record. -/
def referenceSystemWrites (source : Source) : List Write :=
  let systems := (source.record.strings Attribute.crsCode).filterMap referenceSystem?
  each Layout.referenceSystem.code (systems.map Prod.snd)
    ++ each Layout.referenceSystem.codeSpace (systems.map Prod.fst)

/-! ## The content -/

/-- The cloud cover, if it is a whole number of percent. -/
def cloudCover? (record : Record) : Option Int :=
  match record.value? Attribute.cloudCover with
  | some (.int n) => if 0 ≤ n ∧ n ≤ greatestCloudCover then some n else none
  | _ => none

/-- The comment on an image: the only one, or the note that it is not known. -/
def commentWrites (record : Record) : List Write :=
  match record.strings Attribute.comments with
  | [comment] => [.only Layout.imageComment comment]
  | _ => [.only Layout.imageCommentNilReason "unknown"]

/-- The type of the content, whose text comes before its code. -/
def contentTypeWrites : List Write :=
  [.only Layout.imageContentType.text "Image",
    .only Layout.imageContentType.codeList contentTypeList,
    .only Layout.imageContentType.codeListValue "image"]

/-- The description of an image. Comments are written only beside a cloud cover or a single
rating. -/
def imageWrites (source : Source) : Except ConversionFault (List Write) := do
  let record := source.record
  let cover := cloudCover? record
  let ratings := record.values Attribute.imageryRating
  let described := (cover.isSome || ratings.length == 1) && record.has Attribute.comments
  let rating ← match ratings with
    | [] => .ok []
    | value :: _ =>
      match value.display with
      | .ok text => .ok (identifierWrites Layout.imageQuality 1 imageryScale text)
      | .error fault => .error (.integer (.integer fault))
  .ok ((if described then commentWrites record ++ contentTypeWrites else [])
    ++ rating
    ++ optional Layout.cloudCover (cover.map fun n => String.ofList (Number.decimalText n)))

/-! ## The distribution -/

/-- The format of the resource, its version and the place to get it from. -/
def distributionWrites (source : Source) : List Write :=
  optional Layout.formatName (source.record.string? Attribute.mediaFormat)
    ++ optional Layout.formatVersion (source.record.string? Attribute.mediaFormatVersion)
    ++ optional Layout.linkage (source.record.string? Attribute.downloadUrl)

/-! ## Constraints -/

/-- A security block: the classification, that of the originator and the caveat. -/
def securityWrites (places : Layout.SecurityPlaces) (protection : Attribute.Protection)
    (source : Source) : Except ConversionFault (List Write) := do
  let record := source.record
  let caveat ← caveat? (record.value? protection.dissemination)
    (record.values protection.releasability)
  .ok (((Classification.government? protection.classification source.mapping record).elim []
      (codeWrites places.classification 1))
    ++ ((Classification.fine? protection.originatorClassification record).elim []
      (codeWrites places.originatorClassification 1))
    ++ optional places.caveat caveat)

/-- The constraints of the resource: the first is the security block, and the limitations
follow. -/
def resourceConstraintWrites (source : Source) : Except ConversionFault (List Write) := do
  let security ← securityWrites Layout.resourceSecurity Attribute.resourceProtection source
  .ok (security
    ++ [⟨Layout.useLimitation, 2, useLimitation⟩, ⟨Layout.otherConstraints, 3, otherConstraints⟩])

/-- The constraints of the metadata: a security block alone. -/
def metadataConstraintWrites (source : Source) : Except ConversionFault (List Write) :=
  securityWrites Layout.metadataSecurity Attribute.metadataProtection source

end GeoMetadata.Profile
