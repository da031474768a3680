import GeoMetadata.Geometry.WellKnownText
import GeoMetadata.Path.Template
import GeoMetadata.Profile.Vocabulary
import GeoMetadata.Text.Blank
import GeoMetadata.Text.Case
import GeoMetadata.Time.Stamp
import GeoMetadata.Value.Text

/-!
# Values derived from a record

The texts that documents have for identifiers, dates, numbers, languages and caveats, and the
pairing of starts and ends to temporal extents.
-/

namespace GeoMetadata.Profile

open Number (Binary64)

/-- Why a record cannot be converted. -/
inductive ConversionFault where
  /-- An integer is beyond the largest floating-point number. -/
  | numberTooLarge
  /-- A date is beyond the calendar once it is put in UTC. -/
  | dateOutOfRange
  /-- An integer is too long to be written, or it is no index. -/
  | integer (fault : Path.IndexFault)
  /-- A location has curved parts. -/
  | curvedLocation
  deriving DecidableEq, Repr

/-- What is said about a record that cannot be converted. -/
def ConversionFault.message : ConversionFault → String
  | .numberTooLarge => "int too large to convert to float"
  | .dateOutOfRange => "date value out of range"
  | .integer fault => fault.message
  | .curvedLocation => "Nonlinear geometry types are not currently supported"

/-! ## Identifiers -/

/-- The number of characters of an identifier that is cut into groups. -/
def groupedLength : Nat := 32

/-- An identifier in groups of 8, 4, 4, 4 and 12 characters, if it has as many; other
identifiers stay as they are. A line break after the last character does not count. -/
def formatIdentifier (identifier : String) : String :=
  let text := identifier.toList
  if text.length = groupedLength ∨ (text.length = groupedLength + 1 ∧ text.getLast? = some '\n')
  then
    String.ofList (['-'].intercalate
      [text.take 8, (text.drop 8).take 4, (text.drop 12).take 4, (text.drop 16).take 4,
        (text.drop 20).take 12])
  else identifier

/-! ## Dates -/

/-- The stamp of a date in UTC. -/
def dateText (t : Time.DateTime) : Except ConversionFault String :=
  match Time.stamp? t with
  | some text => .ok text
  | none => .error .dateOutOfRange

/-- The stamps of some dates. -/
def dateTexts (ts : List Time.DateTime) : Except ConversionFault (List String) := ts.mapM dateText

/-- A temporal extent: the position of its element, its start and its end. -/
structure TemporalExtent where
  index : Nat
  start : String
  «end» : String
  deriving DecidableEq, Repr

/-- The extent begins and ends at the same time. -/
def TemporalExtent.isInstant (extent : TemporalExtent) : Bool := extent.start = extent.end

/-- The starts and ends, paired by position. If there are more of one than of the other,
there are no pairs. -/
def pairExtents (starts ends : List String) : List TemporalExtent :=
  if starts.length = ends.length then
    ((starts.zip ends).zipIdx 1).map fun ((start, «end»), index) => ⟨index, start, «end»⟩
  else []

/-! ## Numbers -/

/-- The number that an integer or a floating-point number is. -/
def numberOf (value : Value) : Except ConversionFault Binary64 :=
  match value with
  | .float x => .ok x
  | .int n =>
    match Binary64.ofInt? n with
    | some x => .ok x
    | none => .error .numberTooLarge
  | _ => .ok .nan

/-- A bound of a bounding box. -/
def boundText (x : Binary64) : String := String.ofList (Number.fixedText boundDecimals x)

/-- A number with the fewest digits that read back. -/
def decimalText (x : Binary64) : String := String.ofList (Number.shortText x)

/-! ## Languages and caveats -/

/-- The English name of a language, or its code if it has none. -/
def languageName (code : String) : String :=
  (entryValue? (Text.lower code) languageNames).getD code

/-- The caveat of a dissemination control and the parties that a release is allowed to; both
must be there. -/
def caveat? (dissemination : Option Value) (releasability : List Value) :
    Except ConversionFault (Option String) :=
  match dissemination with
  | some (.text control) =>
    if Text.allBlank control ∨ releasability = [] then .ok none
    else match releasability.mapM Value.display with
      | .ok parties => .ok (some (control ++ " " ++ String.intercalate "/" parties))
      | .error fault => .error (.integer (.integer fault))
  | _ => .ok none

end GeoMetadata.Profile
