import GeoMetadata.OrderedMap
import GeoMetadata.Value.Text

/-!
# Reports of failures

A report says what failed, under the code of the area it belongs to, and in what context.
-/

namespace GeoMetadata

/-- The areas that failures belong to. -/
inductive Area where
  /-- Anything else. -/
  | general
  /-- Loading a record. -/
  | record
  /-- Loading settings. -/
  | settings
  /-- Reading a location. -/
  | geometry
  /-- Assembling a document. -/
  | document
  /-- Reading a path of a document. -/
  | path
  deriving DecidableEq, Repr

/-- The code of the failures of an area. -/
def Area.code? : Area → Option String
  | .general => none
  | .record => some "RECORD_LOAD_ERROR"
  | .settings => some "CONFIGURATION_ERROR"
  | .geometry => some "GEOMETRY_PARSE_ERROR"
  | .document => some "DOCUMENT_ASSEMBLY_ERROR"
  | .path => some "DOCUMENT_ASSEMBLY_ERROR"

/-- What the context of an area's failures is called. -/
def Area.contextName : Area → String
  | .general => "context"
  | .record => "file_path"
  | .settings => "setting"
  | .geometry => "wkt"
  | .document => "path"
  | .path => "path"

/-- A report of a failure. -/
structure Report where
  area : Area
  message : String
  code : Option String
  context : List (String × Value)

namespace Report

/-- The report of a failure of an area, about something that counts only if it is not empty. -/
def make (area : Area) (message : String) (about : Value) : Report where
  area := area
  message := message
  code := area.code?
  context := if about.isEmpty then [] else [(area.contextName, about)]

/-- The report of a failure about a text, if there is one. -/
def about (area : Area) (message : String) (subject : Option String) : Report :=
  make area message (subject.elim .null .text)

/-- An entry of the context. -/
def entryText (entry : String × Value) : Except Number.IntegerFault String := do
  .ok (entry.1 ++ "=" ++ (← entry.2.display))

/-- The text of a report: the code, the message and the context. -/
def text (report : Report) : Except Number.IntegerFault String := do
  let entries ← report.context.mapM entryText
  let code := match report.code with
    | none => ""
    | some code => if code = "" then "" else "[" ++ code ++ "] "
  let context := if entries = [] then ""
    else " (Context: " ++ String.intercalate ", " entries ++ ")"
  .ok (code ++ report.message ++ context)

/-- The text of the value that the report is about. -/
def subject? (report : Report) : Option String :=
  (entryValue? report.area.contextName report.context).bind fun value => value.display.toOption

/-- What can be done about a failure to load something. -/
def hint? (report : Report) : Option String :=
  match report.area, report.subject? with
  | .record, some file =>
    some ("Check that '" ++ file
      ++ "' exists and holds a JSON or YAML mapping of attribute names to values")
  | .record, none => some "Check the record file for syntax errors"
  | .settings, some setting => some ("Review the value of '" ++ setting ++ "'")
  | .settings, none => some "Review the settings file against ConverterSettings"
  | _, _ => none

end Report

end GeoMetadata
