import GeoMetadata.Proofs.Geometry.WellKnownText
import GeoMetadata.Proofs.Number.Order

/-!
# The bounds of a shape

The box of a location has the vertices that are written in its text, in the order of the text, and
the least rectangle around them: every vertex is between the bounds, and every bound is a coordinate
of a vertex (`bounds_enclose_vertices`).  Without vertices there are no bounds.  NaN has no place in
the order of coordinates, so that nothing is said of shapes with such a coordinate but that they
have bounds.
-/

namespace GeoMetadata

open Number (Binary64)

variable {west east south north : Binary64} {vertices : List Position}

namespace BoundingBox

/-- The least rectangle around some vertices: each bound is a coordinate of one of them, and all of
them are between the bounds. -/
structure IsLeastAround (vertices : List Position) (west east south north : Binary64) : Prop where
  exists_west : ∃ p ∈ vertices, p.x = west
  exists_east : ∃ p ∈ vertices, p.x = east
  exists_south : ∃ p ∈ vertices, p.y = south
  exists_north : ∃ p ∈ vertices, p.y = north
  encloses : ∀ p ∈ vertices, west ≤ p.x ∧ p.x ≤ east ∧ south ≤ p.y ∧ p.y ≤ north

theorem ofVertices_eq (hsome : vertices ≠ []) : ∃ west east south north,
    ofVertices vertices = ⟨some west, some east, some south, some north, vertices⟩ := by
  obtain ⟨first, rest, rfl⟩ := List.exists_cons_of_ne_nil hsome
  exact ⟨_, _, _, _, rfl⟩

theorem isLeastAround_of_ofVertices
    (hbox : ofVertices vertices = ⟨some west, some east, some south, some north, vertices⟩)
    (hnan : ∀ p ∈ vertices, p.x ≠ .nan ∧ p.y ≠ .nan) :
    IsLeastAround vertices west east south north := by
  obtain ⟨hwest, heast, hsouth, hnorth, -⟩ := BoundingBox.mk.inj hbox
  have hxs : .nan ∉ vertices.map Position.x := by
    intro hmem
    obtain ⟨p, hp, hx⟩ := List.mem_map.mp hmem
    exact (hnan p hp).1 hx
  have hys : .nan ∉ vertices.map Position.y := by
    intro hmem
    obtain ⟨p, hp, hy⟩ := List.mem_map.mp hmem
    exact (hnan p hp).2 hy
  obtain ⟨hwest, hwestMost⟩ := Binary64.least?_eq_some hxs hwest
  obtain ⟨heast, heastMost⟩ := Binary64.greatest?_eq_some hxs heast
  obtain ⟨hsouth, hsouthMost⟩ := Binary64.least?_eq_some hys hsouth
  obtain ⟨hnorth, hnorthMost⟩ := Binary64.greatest?_eq_some hys hnorth
  refine ⟨List.mem_map.mp hwest, List.mem_map.mp heast, List.mem_map.mp hsouth,
    List.mem_map.mp hnorth, fun p hp => ?_⟩
  have hx : p.x ∈ vertices.map Position.x := List.mem_map_of_mem hp
  have hy : p.y ∈ vertices.map Position.y := List.mem_map_of_mem hp
  exact ⟨hwestMost _ hx, heastMost _ hx, hsouthMost _ hy, hnorthMost _ hy⟩

end BoundingBox

namespace WellKnownText

open BoundingBox (IsLeastAround ofVertices ofVertices_eq isLeastAround_of_ofVertices)

/-- A location that is read has a box with its vertices, which are the positions that are written in
the text.  The box is without bounds if there are no vertices; otherwise it has all four, and they
are the least rectangle around the vertices if no coordinate is NaN. -/
theorem bounds_enclose_vertices {text : String} {found : Shape} (hread : read text = .ok found) :
    ∃ box, boundingBox text = .ok box ∧ box.vertices = found.vertices ∧
      Spells box.vertices (numbersOf (tokens text)) ∧
      (box.west = none ∧ box.east = none ∧ box.south = none ∧ box.north = none ↔
        found.vertices = []) ∧
      (found.vertices ≠ [] → ∃ west east south north,
        box = ⟨some west, some east, some south, some north, found.vertices⟩ ∧
        ((∀ p ∈ found.vertices, p.x ≠ .nan ∧ p.y ≠ .nan) →
          IsLeastAround found.vertices west east south north)) := by
  have hbox : boundingBox text = .ok (ofVertices found.vertices) := by
    rw [boundingBox, hread]
    rfl
  refine ⟨ofVertices found.vertices, hbox, rfl, spells_vertices_of_read hread, ?_, fun hsome => ?_⟩
  · constructor
    · rintro ⟨hwest, -⟩
      by_contra hsome
      obtain ⟨west, east, south, north, hsides⟩ := ofVertices_eq hsome
      rw [hsides] at hwest
      cases hwest
    · intro hnone
      rw [hnone]
      exact ⟨rfl, rfl, rfl, rfl⟩
  · obtain ⟨west, east, south, north, hsides⟩ := ofVertices_eq hsome
    exact ⟨west, east, south, north, hsides, isLeastAround_of_ofVertices hsides⟩

/-- A collection of a polygon with a hole, nothing, and a point. -/
def sampleLocation : String :=
  "GEOMETRYCOLLECTION (POLYGON ((0 0, 4 0, 4 3, 0 0), (1 1, 2 1, 1 2, 1 1)), MULTIPOINT EMPTY, POINT (-5 9))"

/-- The point is north and west of the polygon, and the hole is part of what is enclosed. -/
theorem sample_bounds_enclose_vertices :
    ∃ found box west east south north, read sampleLocation = .ok found ∧
      boundingBox sampleLocation = .ok box ∧ found.vertices.length = 9 ∧
      box = ⟨some west, some east, some south, some north, found.vertices⟩ ∧
      IsLeastAround found.vertices west east south north := by
  have hcheck : ((read sampleLocation).toOption.map fun found => decide (found.vertices.length = 9 ∧
      ¬found.vertices.any fun p => p.x = .nan || p.y = .nan)) = some true := by
    decide +kernel
  cases hread : read sampleLocation with
  | error fault =>
      rw [hread] at hcheck
      cases hcheck
  | ok found =>
      rw [hread] at hcheck
      obtain ⟨hlength, hpoints⟩ := of_decide_eq_true (Option.some.inj hcheck)
      have hsome : found.vertices ≠ [] := List.ne_nil_of_length_eq_add_one hlength
      obtain ⟨box, hbox, -, -, -, hbounds⟩ := bounds_enclose_vertices hread
      obtain ⟨west, east, south, north, hsides, hleast⟩ := hbounds hsome
      refine ⟨found, box, west, east, south, north, rfl, hbox, hlength, hsides, hleast fun p hp => ?_⟩
      have hpoint := List.any_eq_false.mp (Bool.not_eq_true _ ▸ hpoints) p hp
      simpa using hpoint

end WellKnownText

end GeoMetadata
