import GeoMetadata.Record
import GeoMetadata.Validation
import GeoMetadata.Value.Text

/-!
# Making a record

A record is made from a map of attributes.  A value that is no list stands for the list of
that value alone, and null for the empty list.  The names of attributes are texts.
-/

namespace GeoMetadata.Record

/-- The list of values that an attribute is given by. -/
def wrap : Value → List Value
  | .null => []
  | .list items => items
  | value => [value]

/-- The issue with the name of an attribute that is no text. -/
def nameIssue? (key : Value) : Option Issue :=
  match key with
  | .text _ => none
  | key => some ⟨["attributes", key.display.toOption.getD "", "[key]"], .notText⟩

/-- The attributes that a map gives. -/
def checkAttributes (entries : List (Value × Value)) : Checked (OrderedMap String (List Value)) :=
  match entries.filterMap (nameIssue? ·.1) with
  | [] => .ok (.ofList (entries.filterMap fun (key, value) =>
      key.text?.map fun name => (name, wrap value)))
  | issues => .error issues

/-- The source that a value gives. -/
def checkSource : Value → Checked (Option String)
  | .null => .ok none
  | .text s => .ok (some s)
  | _ => .error [⟨["source_id"], .notText⟩]

/-- The record of checked parts, or all of their issues. -/
def combine (attributes : Checked (OrderedMap String (List Value)))
    (source : Checked (Option String)) (others : List Issue) : Checked Record :=
  match attributes, source, others with
  | .ok attributes, .ok source, [] => .ok ⟨attributes, source⟩
  | attributes, source, others => .error (attributes.issues ++ source.issues ++ others)

/-- The record of a map of attributes and a source. -/
def ofEntries (entries : List (Value × Value)) (source : Value) : Checked Record :=
  combine (checkAttributes entries) (checkSource source) []

/-- The record whose two fields are given by name; there are no others. -/
def ofFields (fields : List (String × Value)) : Checked Record :=
  let attributes := match entryValue? "attributes" fields with
    | none => .ok .empty
    | some (.map entries) => checkAttributes entries
    | some _ => .error [⟨["attributes"], .notMap⟩]
  let source := (entryValue? "source_id" fields).elim (.ok none) checkSource
  let unknown := fields.filter fun (name, _) => name ≠ "attributes" ∧ name ≠ "source_id"
  combine attributes source (unknown.map fun (name, _) => ⟨[name], .unknownField⟩)

end GeoMetadata.Record
