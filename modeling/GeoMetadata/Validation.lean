/-!
# Issues of validation

Validating a structure looks at all of its fields, and reports every issue with the place
where it was found.
-/

namespace GeoMetadata

/-- What validation finds wrong with a value. -/
inductive Complaint where
  | notText
  | notList
  | notMap
  /-- The value is no map, where settings are expected. -/
  | notSettings
  /-- There is no field of this name. -/
  | unknownField
  /-- The name of a field is no text. -/
  | fieldName
  /-- The language is made up of white space. -/
  | blankLanguage
  deriving DecidableEq, Repr

/-- What is said about a value. -/
def Complaint.message : Complaint → String
  | .notText => "Input should be a valid string"
  | .notList => "Input should be a valid list"
  | .notMap => "Input should be a valid dictionary"
  | .notSettings => "Input should be a valid dictionary or instance of ConverterSettings"
  | .unknownField => "Extra inputs are not permitted"
  | .fieldName => "Keys should be strings"
  | .blankLanguage => "Value error, default_language must not be blank"

/-- A complaint about the value at a place: the names and positions that lead to it. -/
structure Issue where
  place : List String
  complaint : Complaint
  deriving DecidableEq, Repr

/-- The place with points between its parts. -/
def Issue.placeText (issue : Issue) : String := String.intercalate "." issue.place

/-- The result of a field: its value, or the issues with it. -/
abbrev Checked (α : Type) := Except (List Issue) α

/-- The issues of a field. -/
def Checked.issues {α : Type} : Checked α → List Issue
  | .ok _ => []
  | .error issues => issues

end GeoMetadata
