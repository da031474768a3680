import GeoMetadata.Text.Search

/-!
# Paths of files

A path of a file is a list of names, from the root of the file system or from the current
directory.  Empty names and the name of the current directory are left out, and the name of
the directory above is kept.
-/

namespace GeoMetadata

/-- A path of a file. The anchor is empty for a path from the current directory, and else the
one or two slashes that the path starts with. -/
structure FilePath where
  anchor : String
  names : List String
  deriving DecidableEq, Repr, Inhabited

namespace FilePath

/-- The anchor of a text: two slashes count as an anchor of their own, and three or more as
one. -/
def anchorOf : List Char → String
  | ['/', '/'] => "//"
  | '/' :: '/' :: c :: _ => if c = '/' then "/" else "//"
  | '/' :: _ => "/"
  | _ => ""

/-- The path that a text gives. -/
def ofText (text : String) : FilePath where
  anchor := anchorOf text.toList
  names := ((Text.splitAt '/' text.toList).filter fun name => name ≠ [] ∧ name ≠ ['.']).map
    String.ofList

/-- The text of a path. -/
def text (path : FilePath) : String :=
  if path.anchor = "" ∧ path.names = [] then "."
  else path.anchor ++ String.intercalate "/" path.names

/-- The last name of a path. -/
def name (path : FilePath) : String := path.names.getLast?.getD ""

/-- The path of the directory that a path lies in. -/
def parent (path : FilePath) : FilePath := { path with names := path.names.dropLast }

/-- The end of the last name from its last point on. A point at either end of the name does
not count. -/
def suffix (path : FilePath) : String :=
  let reversed := path.name.toList.reverse
  let ending := reversed.takeWhile (· ≠ '.')
  match reversed.dropWhile (· ≠ '.') with
  | _ :: _ :: _ => if ending = [] then "" else String.ofList ('.' :: ending.reverse)
  | _ => ""

end FilePath

end GeoMetadata
