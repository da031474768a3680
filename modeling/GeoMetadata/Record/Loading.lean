import GeoMetadata.Record.Attribute
import GeoMetadata.Record.Validation
import GeoMetadata.Report
import GeoMetadata.Time.Iso8601

/-!
# Loading a record from data

The data of a record is the map of its attributes, or a map that holds this map under
`attributes` beside the source of the record.  The texts of dated attributes are read as ISO
8601 dates, and plain dates stand for their midnight.  What the texts say is left to a reader.
-/

namespace GeoMetadata.Record

/-- Why data gives no record. -/
inductive DataFault where
  /-- The attributes are no map. -/
  | notMap
  /-- The text of a dated attribute is no date. -/
  | notDate (attr text : String)
  /-- The text of a dated attribute names a day after the last. -/
  | dateOutOfRange (detail : String)
  /-- The source is an integer that is too long to be written. -/
  | integer (fault : Number.IntegerFault)
  /-- Attributes are not valid. -/
  | invalid (issues : List Issue)
  deriving DecidableEq, Repr

/-- The number of issues, in words. -/
def issueCount (issues : List Issue) : String :=
  toString issues.length ++ " validation error" ++ (if issues.length = 1 then "" else "s")
    ++ " for SourceRecord"

/-- The line on an issue. -/
def issueLine (issue : Issue) : String := "\n" ++ issue.placeText ++ "\n  " ++ issue.complaint.message

/-- What is said about data that gives no record. -/
def DataFault.message : DataFault → String
  | .notMap => "'attributes' must be a mapping"
  | .notDate attr text =>
    "Invalid record: " ++ attr ++ ": '" ++ text ++ "' is not an ISO 8601 date"
  | .dateOutOfRange detail => "Invalid record: " ++ detail
  | .integer fault => "Invalid record: " ++ fault.message
  | .invalid issues =>
    "Invalid record: " ++ issueCount issues ++ String.join (issues.map issueLine)

variable (moment : Time.Iso8601.Reader)

/-- A value of a dated attribute. -/
def datedValue (attr : String) : Value → Except DataFault Value
  | .date d => .ok (.moment ⟨d, .midnight, none⟩)
  | .text s =>
    match moment s with
    | .ok t => .ok (.moment t)
    | .error .malformed => .error (.notDate attr s)
    | .error (.outOfRange detail) => .error (.dateOutOfRange detail)
  | value => .ok value

/-- The value of an attribute once its dates are read. -/
def readDates (key value : Value) : Except DataFault Value :=
  match key with
  | .text attr =>
    if attr ∈ Attribute.dated then
      match value with
      | .list items => return .list (← items.mapM (datedValue moment attr))
      | value => datedValue moment attr value
    else .ok value
  | _ => .ok value

/-- The entry of an attribute once its dates are read. -/
def readEntry (entry : Value × Value) : Except DataFault (Value × Value) := do
  .ok (entry.1, ← readDates moment entry.1 entry.2)

/-- The source that a value names. -/
def sourceText : Value → Except DataFault Value
  | .null => .ok .null
  | value => match value.display with
    | .ok text => .ok (.text text)
    | .error fault => .error (.integer fault)

/-- The record of a map of attributes and a source. -/
def ofAttributes (entries : List (Value × Value)) (source : Value) : Except DataFault Record := do
  let entries ← entries.mapM (readEntry moment)
  let source ← sourceText source
  match ofEntries entries source with
  | .ok record => .ok record
  | .error issues => .error (.invalid issues)

/-- The record of a map. -/
def ofData (entries : List (Value × Value)) : Except DataFault Record :=
  match Value.field? entries "attributes" with
  | none => ofAttributes moment entries .null
  | some (.map attributes) =>
    ofAttributes moment attributes ((Value.field? entries "source_id").getD .null)
  | some _ => .error .notMap

end GeoMetadata.Record
