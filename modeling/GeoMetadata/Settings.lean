import GeoMetadata.OrderedMap
import GeoMetadata.Text.Blank
import GeoMetadata.Text.Case
import GeoMetadata.Validation
import GeoMetadata.Value.Text

/-!
# Settings

The settings of a conversion, with their defaults, and their validation from a map.  The
default language is stripped of white space and put in lower case, and must not be blank.
-/

namespace GeoMetadata

/-- The settings of a conversion. -/
structure Settings where
  /-- Pairs of a classification code and the value that records have for it. -/
  securityMappingList : List String
  /-- The name of the source system, which goes before the source of a record. -/
  sourceSystemName : Option String
  /-- The language of records that name none. -/
  defaultLanguage : String
  /-- The reference system of bounding polygons. -/
  gmlSrsName : String
  deriving DecidableEq, Repr

namespace Settings

/-- The settings where nothing is set. -/
def default : Settings where
  securityMappingList := []
  sourceSystemName := none
  defaultLanguage := "eng"
  gmlSrsName := "http://www.opengis.net/def/crs/EPSG/0/4326"

instance : Inhabited Settings := ⟨default⟩

/-- The names of the settings. -/
def fieldNames : List String :=
  ["security_mapping_list", "source_system_name", "default_language", "gml_srs_name"]

/-- The issues with the items of a list that should be texts. -/
def itemIssues (name : String) (items : List Value) : List Issue :=
  items.zipIdx.filterMap fun (item, position) =>
    match item with
    | .text _ => none
    | _ => some ⟨[name, toString position], .notText⟩

/-- A list of texts. -/
def checkTexts (name : String) : Value → Checked (List String)
  | .list items =>
    match itemIssues name items with
    | [] => .ok (items.filterMap Value.text?)
    | issues => .error issues
  | _ => .error [⟨[name], .notList⟩]

/-- A text. -/
def checkText (name : String) : Value → Checked String
  | .text s => .ok s
  | _ => .error [⟨[name], .notText⟩]

/-- A text or null. -/
def checkOptional (name : String) : Value → Checked (Option String)
  | .null => .ok none
  | value => (checkText name value).map some

/-- A language. -/
def checkLanguage (name : String) (value : Value) : Checked String := do
  let text ← checkText name value
  let code := Text.strip text
  if code = "" then .error [⟨[name], .blankLanguage⟩] else .ok (Text.lower code)

/-- The issue with a field that is no setting. -/
def fieldIssue? (key : Value) : Option Issue :=
  match key with
  | .text name => if name ∈ fieldNames then none else some ⟨[name], .unknownField⟩
  | key => some ⟨[key.display.toOption.getD ""], .fieldName⟩

/-- The settings that the entries of a map give. -/
def ofEntries (entries : List (Value × Value)) : Checked Settings :=
  let check {α : Type} (name : String) (unset : α) (read : String → Value → Checked α) :
      Checked α :=
    (Value.field? entries name).elim (.ok unset) (read name)
  let mapping := check "security_mapping_list" default.securityMappingList checkTexts
  let system := check "source_system_name" default.sourceSystemName checkOptional
  let language := check "default_language" default.defaultLanguage checkLanguage
  let srs := check "gml_srs_name" default.gmlSrsName checkText
  match mapping, system, language, srs, entries.filterMap (fieldIssue? ·.1) with
  | .ok mapping, .ok system, .ok language, .ok srs, [] => .ok ⟨mapping, system, language, srs⟩
  | mapping, system, language, srs, others =>
    .error (mapping.issues ++ system.issues ++ language.issues ++ srs.issues ++ others)

/-- The settings that a value gives. -/
def ofValue : Value → Checked Settings
  | .map entries => ofEntries entries
  | _ => .error [⟨[], .notSettings⟩]

end Settings

end GeoMetadata
