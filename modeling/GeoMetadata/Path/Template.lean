import GeoMetadata.Path.Reading

/-!
# Path templates

A template is a path whose repeatable elements wait for their index.  A template text has a
placeholder in the place of each index, and `fill` puts one index into all of them.  A
`Template` says which elements are repeatable; `Template.at` is its path for one index.
-/

namespace GeoMetadata.Path

open Number Text

/-- Why an index was not put into a template text. -/
inductive IndexFault where
  /-- Occurrences are counted from 1. -/
  | notPositive (index : Int) (template : String)
  /-- The index has too many digits to be written. -/
  | integer (fault : IntegerFault)
  deriving DecidableEq, Repr

/-- What is said about an index. -/
def IndexFault.message : IndexFault → String
  | .notPositive index template =>
    "Occurrence index must be positive, got " ++ String.ofList (decimalText index) ++ " for '"
      ++ template ++ "'"
  | .integer fault => fault.message

/-- The template text with an index in the place of each placeholder. An index that cannot be
written is at fault before one that is not positive. -/
def fill (template : String) (index : Int) : Except IndexFault String :=
  match integerText index with
  | .error fault => .error (.integer fault)
  | .ok digits =>
    if index ≤ 0 then .error (.notPositive index template)
    else .ok (String.ofList (replaceAll placeholder digits.toList template.toList))

/-! ## Templates by their segments -/

/-- A segment of a template. -/
inductive TemplateSegment where
  /-- The one element of its name. -/
  | single (name : String)
  /-- The element of its name that has the index in question. -/
  | repeated (name : String)
  /-- An attribute. -/
  | attr (name : String)
  deriving DecidableEq, Repr

/-- A path whose repeated elements share an index that is not yet known. -/
abbrev Template := List TemplateSegment

namespace Template

/-- The spelling of a segment with a text in the place of its index. -/
def spellSegment (index : List Char) : TemplateSegment → List Char
  | .single name => '/' :: name.toList
  | .repeated name => '/' :: name.toList ++ '[' :: index ++ [']']
  | .attr name => '/' :: '@' :: name.toList

/-- The spelling of a template with a text in the place of its index. -/
def spell (template : Template) (index : List Char) : String :=
  String.ofList (template.flatMap (spellSegment index))

/-- The text of a template, with the placeholder in the place of its index. -/
def text (template : Template) : String := template.spell placeholder

/-- The path of a template for one index. -/
def «at» (template : Template) (index : Nat) : String := template.spell (Nat.toDigits 10 index)

/-- The segments of the path of a template for one index. -/
def segments (template : Template) (index : Nat) : List Segment :=
  template.map fun
    | .single name => .element name 1
    | .repeated name => .element name index
    | .attr name => .attr name

end Template

end GeoMetadata.Path
