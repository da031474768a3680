import GeoMetadata.Profile.Conversion
import GeoMetadata.Xml.Writing

/-!
# Converters

A converter holds settings, and a security mapping and the name of a source system that may
be changed between conversions.  A conversion depends on these and on nothing from before.
-/

namespace GeoMetadata

open Profile (ConversionFault)

/-- What conversions depend on beside their record. -/
structure Converter where
  settings : Settings
  mapping : SecurityMapping
  systemName : Option String
  deriving Inhabited

namespace Converter

/-- The converter with some settings. -/
def ofSettings (settings : Settings) : Converter where
  settings := settings
  mapping := .ofList settings.securityMappingList
  systemName := settings.sourceSystemName

/-- The converter with the security mapping of some entries. -/
def withMapping (converter : Converter) (entries : List String) : Converter :=
  { converter with mapping := .ofList entries }

/-- The converter with a name of the source system. -/
def withSystemName (converter : Converter) (name : Option String) : Converter :=
  { converter with systemName := name }

/-- The name of the property that holds a security mapping. -/
def mappingProperty : String := "securityMappingList"

/-- The name of the property that holds the name of the source system. -/
def systemProperty : String := "sourceSystemName"

/-- Why properties cannot be applied. -/
inductive PropertyFault where
  /-- The mapping is no list. -/
  | notList (value : Value)
  /-- An entry of the mapping is no text. -/
  | entry (fault : SecurityMapping.EntryFault)
  /-- The properties hold an integer that is too long to be written. -/
  | integer (fault : Number.IntegerFault)

/-- The entries of a mapping property. -/
def mappingEntries : Value → Except PropertyFault (List String)
  | .list items => (SecurityMapping.entriesOf items).mapError .entry
  | .map entries => (SecurityMapping.entriesOf (entries.map Prod.fst)).mapError .entry
  | .text s => .ok (s.toList.map fun c => String.ofList [c])
  | value => .error (.notList value)

/-- The text of properties, which is noted before they are applied. -/
def propertiesText (properties : List (Value × Value)) : Except PropertyFault String :=
  (Value.map properties).literal.mapError .integer

/-- The converter with some properties applied: a mapping that is not empty replaces the
present one, and the name of the source system is replaced in any case. -/
def refresh (converter : Converter) (properties : List (Value × Value)) :
    Except PropertyFault Converter := do
  let _ ← propertiesText properties
  let mapping := (Value.field? properties mappingProperty).getD .null
  let name := ((Value.field? properties systemProperty).bind Value.text?)
  if mapping.isEmpty then .ok (converter.withSystemName name)
  else .ok ((converter.withMapping (← mappingEntries mapping)).withSystemName name)

/-! ## Conversions -/

/-- What the document of a record is made from. -/
def source (converter : Converter) (now : Time.DateTime) (gmlId : Nat → String)
    (record : Record) : Profile.Source where
  settings := converter.settings
  mapping := converter.mapping
  systemName := converter.systemName
  record := record
  now := now
  gmlId := gmlId

/-- Why a record has no document. -/
inductive Fault where
  | conversion (fault : ConversionFault)
  | assembly (fault : Document.AssemblyFault)
  | build (fault : Xml.BuildFault)
  deriving DecidableEq, Repr

/-- The assignments of a source. -/
def assignments (source : Profile.Source) : Except Fault Assignments :=
  (Profile.assignments source).mapError .conversion

/-- The document of some assignments. -/
def assemble (assignments : Assignments) : Except Fault Node :=
  (Document.assemble Profile.Layout.rootName assignments.entries).mapError .assembly

/-- The document of a source. -/
def document (source : Profile.Source) : Except Fault Node := do assemble (← assignments source)

/-- The XML element of a document. -/
def element (document : Node) : Except Fault Xml.Element :=
  (Xml.Element.ofNode document).mapError .build

end Converter

end GeoMetadata
