import GeoMetadata.OrderedMap
import GeoMetadata.Path.Template

/-!
# Assignments

The assignments of a document give values to paths.  They are kept in the order in which
their paths were first assigned, which becomes the order of the document; assigning a path
anew changes its value and not its place.
-/

namespace GeoMetadata

/-- The values of paths, in the order in which the paths were first assigned. -/
abbrev Assignments := OrderedMap String String

namespace Assignments

/-- The assignments after each value is assigned to the next occurrence of a template text,
and the fault that ended this early, if any. What was assigned before a fault stays. -/
def assignEach (m : Assignments) (template : String) :
    Int → List String → Assignments × Option Path.IndexFault
  | _, [] => (m, none)
  | index, value :: rest =>
    match Path.fill template index with
    | .error fault => (m, some fault)
    | .ok path => assignEach (m.insert path value) template (index + 1) rest

end Assignments

end GeoMetadata
