import GeoMetadata.Geometry.Shape
import GeoMetadata.Proofs.Number.DecimalText
import GeoMetadata.Proofs.Text.Pieces

/-!
# Boxes and their position lists

A box has all of its bounds or, if there are no vertices, none of them
(`exists_bounds?_ofVertices`).  Its position list has the numbers of the vertices one after the
other: cut at the spaces, it gives the texts of the coordinates, two for each vertex
(`splitAt_positionList`).
-/

namespace GeoMetadata

open Number (Binary64 shortText)

variable {vertices : List Position} {box : BoundingBox}

/-- The texts of the coordinates of a position. -/
def Position.numbers (p : Position) : List (List Char) := [shortText p.x, shortText p.y]

theorem Position.splitAt_text (p : Position) : Text.splitAt ' ' p.text = p.numbers := by
  rw [Position.text, Text.splitAt_append_cons (Number.space_not_mem_shortText _),
    Text.splitAt_of_not_mem (Number.space_not_mem_shortText _), Position.numbers]

namespace BoundingBox

/-- The bounds of a list of vertices are there all together, unless there are no vertices. -/
theorem exists_bounds?_ofVertices (hsome : vertices ≠ []) :
    ∃ west east south north, (ofVertices vertices).bounds? = some [west, east, south, north] := by
  obtain ⟨first, rest, rfl⟩ := List.exists_cons_of_ne_nil hsome
  exact ⟨_, _, _, _, rfl⟩

/-- A position list that is not empty gives back the numbers of the vertices, in order. -/
theorem splitAt_positionList (hsome : box.vertices ≠ []) :
    Text.splitAt ' ' box.positionList.toList = box.vertices.flatMap Position.numbers := by
  have htexts : box.vertices.map Position.text ≠ [] := List.map_eq_nil_iff.not.mpr hsome
  rw [positionList, String.toList_ofList, Text.splitAt_intercalate_eq_flatMap htexts,
    List.flatMap_map]
  exact List.flatMap_congr fun p _ => p.splitAt_text

theorem length_flatMap_numbers (vertices : List Position) :
    (vertices.flatMap Position.numbers).length = 2 * vertices.length := by
  induction vertices with
  | nil => rfl
  | cons p rest ih =>
      rw [List.flatMap_cons, List.length_append, ih, List.length_cons, Nat.mul_succ, Nat.add_comm]
      rfl

end BoundingBox

end GeoMetadata
