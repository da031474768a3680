import GeoMetadata.Path.Segment
import GeoMetadata.Number.Integer

/-!
# Reading a path

A path starts with a slash, and slashes separate its segments.  An element segment is a name
with an optional index in brackets, which is 1 if it is left out; an attribute segment has an
at sign before its name and stands last.  The placeholder of templates is not allowed, and a
line break after the closing bracket of an index is.
-/

namespace GeoMetadata.Path

open Number Text

/-- The text that templates have in the place of an index. -/
def placeholder : List Char := "%index%".toList

/-- What is wrong with the form of a path. -/
inductive FormFault where
  | notAbsolute
  | placeholder
  | emptySegment
  | attributeNotLast
  | malformed (segment : String)
  | index (segment : String)
  deriving DecidableEq, Repr

/-- What is said about the form of a path. -/
def FormFault.message : FormFault → String
  | .notAbsolute => "Path must be absolute"
  | .placeholder => "Path still contains an index placeholder"
  | .emptySegment => "Path contains an empty segment"
  | .attributeNotLast => "Attribute segments may only appear last"
  | .malformed segment => "Malformed segment '" ++ segment ++ "'"
  | .index segment => "Index in segment '" ++ segment ++ "' must be a positive integer"

/-- Why a text is no path: its form, or an index that is made of digits and yet cannot be
read. -/
inductive Fault where
  | form (fault : FormFault)
  | integer (fault : IntegerFault)
  deriving DecidableEq, Repr

/-- A character of an element name. -/
def isNameChar (c : Char) : Bool := !(c = '[' || c = ']' || c = '@' || c = '/')

/-- The index that stands in the brackets of a segment. -/
def readIndex (segment index : List Char) : Except Fault Nat :=
  if index = [] ∨ ¬ index.all isDigit then .error (.form (.index (String.ofList segment)))
  else match readNatural (String.ofList index) with
    | .error fault => .error (.integer fault)
    | .ok 0 => .error (.form (.index (String.ofList segment)))
    | .ok (n + 1) => .ok (n + 1)

/-- Reads an element segment. -/
def readElement (segment : List Char) : Except Fault Segment :=
  let malformed : Fault := .form (.malformed (String.ofList segment))
  let name := segment.takeWhile isNameChar
  if name = [] then .error malformed
  else match segment.dropWhile isNameChar with
    | [] => .ok (.element (String.ofList name) 1)
    | '[' :: rest =>
      let tail := rest.dropWhile (· ≠ ']')
      if tail = [']'] ∨ tail = [']', '\n'] then do
        let index ← readIndex segment (rest.takeWhile (· ≠ ']'))
        .ok (.element (String.ofList name) index)
      else .error malformed
    | _ => .error malformed

/-- Reads a segment that has further segments after it or not. -/
def readSegment (isLast : Bool) : List Char → Except Fault Segment
  | '@' :: name =>
    if isLast then .ok (.attr (String.ofList name)) else .error (.form .attributeNotLast)
  | segment => readElement segment

/-- Reads the segments in order. -/
def readSegments : List (List Char) → Except Fault (List Segment)
  | [] => .ok []
  | segment :: rest => do
    let first ← readSegment rest.isEmpty segment
    .ok (first :: (← readSegments rest))

/-- The segments of a path. -/
def read (path : String) : Except Fault (List Segment) :=
  match path.toList with
  | '/' :: rest =>
    if contains placeholder path.toList then .error (.form .placeholder)
    else
      let segments := splitAt '/' rest
      if segments.any List.isEmpty then .error (.form .emptySegment)
      else readSegments segments
  | _ => .error (.form .notAbsolute)

end GeoMetadata.Path
