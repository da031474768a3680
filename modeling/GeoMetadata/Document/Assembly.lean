import GeoMetadata.Document.Node
import GeoMetadata.Path.Reading

/-!
# Assembling a document

Assembly reads the paths of a list of assignments in order and writes each value where its
path leads: nodes that are missing on the way are created, and the value becomes the text of
the last node or one of its attributes.  Every path starts at the root, in its first
occurrence.
-/

namespace GeoMetadata.Document

open GeoMetadata.Path

/-- Why assignments make no document. -/
inductive AssemblyFault where
  /-- The path cannot be read. -/
  | path (path : String) (fault : Path.Fault)
  /-- The path does not start at the root. -/
  | elsewhere (path root : String)
  deriving DecidableEq, Repr

/-- Writes a value where some segments lead from a node. -/
def assign (value : String) : List Segment → Node → Node
  | [], node => node.withText value
  | .attr name :: _, node => node.withAttribute name value
  | .element name index :: rest, node => node.changeChild name index (assign value rest)

/-- The segments below the root of a path that starts at it. -/
def belowRoot (root path : String) : Except AssemblyFault (List Segment) :=
  match Path.read path with
  | .error fault => .error (.path path fault)
  | .ok (.element name 1 :: rest) =>
    if name = root then .ok rest else .error (.elsewhere path root)
  | .ok _ => .error (.elsewhere path root)

/-- The document with one more assignment. -/
def addAssignment (root : String) (document : Node) (assignment : String × String) :
    Except AssemblyFault Node := do
  let segments ← belowRoot root assignment.1
  .ok (assign assignment.2 segments document)

/-- The document of a list of assignments. -/
def assemble (root : String) (assignments : List (String × String)) :
    Except AssemblyFault Node :=
  assignments.foldlM (addAssignment root) (Node.leaf root 1)

end GeoMetadata.Document
