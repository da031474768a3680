import GeoMetadata.Proofs.Profile.Document

/-!
# Reading a document where it was written

What a section writes at an occurrence of a template is read there in the document
(`exists_document`), because no two writes go to one place.  A section that numbers nothing through
gives all that it writes (`subset_of_plain`, `exists_subset_of_checked`).  So a value of the
document is told by the section that it comes from, without the others.
-/

namespace GeoMetadata.Profile

open GeoMetadata.Path (Template)

variable {source : Source} {tracker : Assignments} {given : List Contribution} {n : Nat}
  {name : String}

/-- The value at an occurrence of a template in a document. -/
def valueIn? (document : Node) (template : Template) (index : Nat) : Option String :=
  document.valueAt? (template.segments index).tail

/-- A record that has assignments has a document, and all that the sections write is read in it. -/
theorem exists_document (hok : assignments source = .ok tracker) :
    ∃ given document, contributions source = .ok given ∧
      Converter.assemble tracker = .ok document ∧
      ∀ write ∈ allWrites given, valueIn? document write.template write.index = some write.value := by
  obtain ⟨given, hgiven, hcomposed⟩ := exists_composed hok
  have hplaced := hcomposed.placed
  refine ⟨given, _, hgiven, hplaced.assembled, fun write hwrite => ?_⟩
  exact Document.valueAt?_place hplaced.isPlace (Document.nodup_of_pairwise hplaced.precedes)
    write.placement (List.mem_map_of_mem hwrite)

theorem subset_of_plain {writes : Source → List Write}
    (hpart : sections[n]? = some (.plain name writes)) (hok : contributions source = .ok given) :
    writes source ⊆ allWrites given := by
  obtain ⟨before, own, after, progress, hown, hall, -⟩ := exists_allWrites_split hpart hok
  obtain rfl := Except.ok.inj hown
  rw [hall]
  exact List.subset_append_of_subset_right _ (List.subset_append_left _ _)

theorem exists_subset_of_checked {writes : Source → Except ConversionFault (List Write)}
    (hpart : sections[n]? = some (.checked name writes)) (hok : contributions source = .ok given) :
    ∃ own, writes source = .ok own ∧ own ⊆ allWrites given := by
  obtain ⟨before, part, after, progress, hpart, hall, -⟩ := exists_allWrites_split hpart hok
  obtain ⟨own, hown, rfl⟩ := map_eq_ok_iff.mp hpart
  refine ⟨own, hown, ?_⟩
  rw [hall]
  exact List.subset_append_of_subset_right _ (List.subset_append_left _ _)

end GeoMetadata.Profile
