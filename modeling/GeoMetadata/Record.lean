import GeoMetadata.OrderedMap
import GeoMetadata.Value

/-!
# Records

A record of a catalog gives each of its attributes a list of values.  The lookups pass over
nulls and ask for one kind of value, so that a value of another kind reads as a missing one.
-/

namespace GeoMetadata

open Number (Binary64)

/-- A record: the values of its attributes, and the catalog source it came from. -/
structure Record where
  attributes : OrderedMap String (List Value)
  sourceId : Option String
  deriving Inhabited

namespace Record

/-- The attribute is set, even if it has no usable value. -/
def has (record : Record) (name : String) : Bool := record.attributes.contains name

/-- The values of an attribute without nulls. -/
def values (record : Record) (name : String) : List Value :=
  ((record.attributes.get? name).getD []).filter (!·.isNull)

/-- The first value of an attribute. -/
def value? (record : Record) (name : String) : Option Value := (record.values name).head?

/-- The first value of an attribute, if it is a text. -/
def string? (record : Record) (name : String) : Option String :=
  (record.value? name).bind Value.text?

/-- The texts among the values of an attribute. -/
def strings (record : Record) (name : String) : List String :=
  (record.values name).filterMap Value.text?

/-- The first value of an attribute, if it is a moment. -/
def moment? (record : Record) (name : String) : Option Time.DateTime :=
  (record.value? name).bind Value.moment?

/-- The moments among the values of an attribute. -/
def moments (record : Record) (name : String) : List Time.DateTime :=
  (record.values name).filterMap Value.moment?

end Record

/-- The number of a value that is an integer or a floating-point number; truth values are
no numbers. The outer option is `none` for an integer beyond the largest number. -/
def Value.number? : Value → Option (Option Binary64)
  | .int n => (Binary64.ofInt? n).map some
  | .float x => some (some x)
  | _ => some none

/-- The numbers among the values of an attribute, unless one of the integers is beyond the
largest number. -/
def Record.numbers? (record : Record) (name : String) : Option (List Binary64) :=
  ((record.values name).mapM Value.number?).map (·.filterMap id)

end GeoMetadata
