import GeoMetadata.Profile.ResourceSections

/-!
# The parts of an extent

What the sections on the extent of a resource rely on: the location, the bounds of a box and the
numbers of the temporal extents.
-/

namespace GeoMetadata.Profile

open Number (Binary64)

/-- The location that a section takes is that of the record, unless it is empty. -/
theorem filter_location_eq_some {source : Source} {location : String}
    (hlocation : source.record.string? Attribute.location = some location)
    (hsome : location ≠ "") :
    (source.record.string? Attribute.location).filter (· ≠ "") = some location := by
  rw [hlocation, Option.filter_some, if_pos (decide_eq_true hsome)]

/-- A box that has bounds has all four. -/
theorem exists_bounds?_eq {box : BoundingBox} {bounds : List Binary64}
    (hbounds : box.bounds? = some bounds) :
    ∃ west east south north, bounds = [west, east, south, north] := by
  obtain ⟨west, east, south, north, vertices⟩ := box
  cases west <;> cases east <;> cases south <;> cases north <;>
    simp [BoundingBox.bounds?] at hbounds
  exact ⟨_, _, _, _, hbounds.symm⟩

/-- The extents are numbered from 1 to their number. -/
theorem map_index_pairExtents (starts ends : List String) :
    (pairExtents starts ends).map TemporalExtent.index =
      List.range' 1 (if starts.length = ends.length then starts.length else 0) := by
  unfold pairExtents
  split
  · rename_i hlength
    rw [List.map_map]
    have hindex : (TemporalExtent.index ∘ fun x : (String × String) × Nat =>
        (⟨x.2, x.1.1, x.1.2⟩ : TemporalExtent)) = Prod.snd := rfl
    exact (congrArg (List.map · _) hindex).trans (by simp [hlength])
  · simp

theorem map_index_eq_range (starts ends : List String) :
    (pairExtents starts ends).map TemporalExtent.index =
      List.range' 1 (pairExtents starts ends).length := by
  have hrange := map_index_pairExtents starts ends
  have hlength := congrArg List.length hrange
  rw [List.length_map, List.length_range'] at hlength
  rw [hrange, hlength]

theorem index_bounds_of_mem_pairExtents {starts ends : List String} {extent : TemporalExtent}
    (hextent : extent ∈ pairExtents starts ends) :
    0 < extent.index ∧ extent.index ≤ (pairExtents starts ends).length := by
  have hmem := List.mem_map_of_mem (f := TemporalExtent.index) hextent
  rw [map_index_eq_range, List.mem_range'_1] at hmem
  omega

theorem index_pos_of_mem_pairExtents {starts ends : List String} {extent : TemporalExtent}
    (hextent : extent ∈ pairExtents starts ends) : 0 < extent.index :=
  (index_bounds_of_mem_pairExtents hextent).1

end GeoMetadata.Profile
