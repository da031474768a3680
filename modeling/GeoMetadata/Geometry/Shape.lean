import GeoMetadata.Number.Binary64
import GeoMetadata.Number.DecimalText

/-!
# Shapes and their bounds

A shape is a point, a line, a polygon with its rings, or a collection of shapes.  Its
vertices are listed in the order in which they were given, and its bounds are the least and
greatest coordinates among them.
-/

namespace GeoMetadata

open Number (Binary64)

/-- A position in the plane. -/
structure Position where
  x : Binary64
  y : Binary64
  deriving DecidableEq, Repr

/-- The decimal text of a position. -/
def Position.text (p : Position) : List Char := Number.shortText p.x ++ ' ' :: Number.shortText p.y

/-- A shape in the plane. -/
inductive Shape where
  | point (position : Option Position)
  | line (vertices : List Position)
  | polygon (rings : List (List Position))
  | collection (parts : List Shape)

namespace Shape

mutual

/-- The vertices of a shape, in order. -/
def vertices : Shape → List Position
  | point position => position.toList
  | line vertices => vertices
  | polygon rings => rings.flatten
  | collection parts => allVertices parts

/-- The vertices of some shapes, in order. -/
def allVertices : List Shape → List Position
  | [] => []
  | shape :: rest => vertices shape ++ allVertices rest

end

end Shape

/-- The least rectangle around the vertices of a shape, and the vertices themselves. Without
vertices there is no rectangle. -/
structure BoundingBox where
  west : Option Binary64
  east : Option Binary64
  south : Option Binary64
  north : Option Binary64
  vertices : List Position
  deriving DecidableEq, Repr

namespace BoundingBox

/-- The bounds of a list of vertices. -/
def ofVertices (vertices : List Position) : BoundingBox where
  west := Binary64.least? (vertices.map Position.x)
  east := Binary64.greatest? (vertices.map Position.x)
  south := Binary64.least? (vertices.map Position.y)
  north := Binary64.greatest? (vertices.map Position.y)
  vertices := vertices

/-- The four bounds, from west to north, if there are any. -/
def bounds? (box : BoundingBox) : Option (List Binary64) :=
  [box.west, box.east, box.south, box.north].mapM id

/-- The coordinates of the vertices, separated by spaces. -/
def positionList (box : BoundingBox) : String :=
  String.ofList ([' '].intercalate (box.vertices.map Position.text))

end BoundingBox

end GeoMetadata
