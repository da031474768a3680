import GeoMetadata.Json.Reading
import GeoMetadata.Time.Iso8601
import GeoMetadata.Yaml.Schema

/-!
# Readers

The program does not read JSON, YAML and the dates of ISO 8601 by itself.  It is given a reader of
each and goes on with what that says: a value, or a fault, which is that the text has the wrong
form, or something else.  Which texts have which values is up to the readers.
-/

namespace GeoMetadata

/-- The readers that the program relies on. -/
structure Readers where
  json : List Char → Except Json.Fault Value
  yaml : List Char → Except Yaml.Fault Value
  moment : Time.Iso8601.Reader

/-- The readers of this library. -/
def Readers.standard : Readers where
  json := Json.read
  yaml := Yaml.read
  moment := Time.Iso8601.read

end GeoMetadata
