import GeoMetadata.Text.Search

/-!
# Segments of a document path

A path leads from the root of a document to a text or to an attribute.  Each of its segments
names an element and its occurrence among the siblings of that name, counted from 1; the last
may name an attribute instead.
-/

namespace GeoMetadata

/-- A segment of a path. -/
inductive Segment where
  | element (name : String) (index : Nat)
  | attr (name : String)
  deriving DecidableEq, Repr, Inhabited

namespace Segment

/-- The name of the element or attribute. -/
def name : Segment → String
  | element name _ => name
  | attr name => name

/-- The occurrence of an element; an attribute occurs once. -/
def index : Segment → Nat
  | element _ index => index
  | attr _ => 1

/-- The segment names an attribute. -/
def isAttribute : Segment → Bool
  | element .. => false
  | attr _ => true

end Segment

/-- The part of a qualified name before its first colon, if it has one, and the part after. -/
def splitQualified (name : String) : Option String × String :=
  match Text.cutAt ':' name.toList with
  | (_, none) => (none, name)
  | (before, some after) => (some (String.ofList before), String.ofList after)

end GeoMetadata
