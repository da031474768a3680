import GeoMetadata.Proofs.Path.Template

/-!
# Paths below a place

A path is below a place if it goes on from the text of the place with a slash (`restBelow?`).
Texts and templates agree about this:

* what a template goes on with after a place is the rest of its path (`restBelow?_at_append`);
* a path below a place leads through the segments of the place (`segments_prefix_of_restBelow?`),
  so that a template with another name on the way is elsewhere at all indices
  (`restBelow?_eq_none_of_names`).
-/

namespace GeoMetadata.Path

open Number Text

/-- How a path goes on below a place, from the slash on. -/
def restBelow? (place path : String) : Option String :=
  if (place.toList ++ ['/']).isPrefixOf path.toList then
    some (String.ofList (path.toList.drop place.toList.length))
  else none

theorem restBelow?_eq_some_iff {place path rest : String} :
    restBelow? place path = some rest ↔
      ∃ tail, rest.toList = '/' :: tail ∧ path.toList = place.toList ++ rest.toList := by
  rw [restBelow?]
  constructor
  · intro h
    split at h
    · rename_i hprefix
      obtain ⟨tail, htail⟩ := List.isPrefixOf_iff_prefix.mp hprefix
      obtain rfl := Option.some.inj h
      rw [List.append_assoc, List.singleton_append] at htail
      exact ⟨tail, by simp [← htail]⟩
    · nomatch h
  · rintro ⟨tail, hrest, hpath⟩
    have hprefix : (place.toList ++ ['/']).isPrefixOf path.toList = true :=
      List.isPrefixOf_iff_prefix.mpr ⟨tail, by simp [hpath, hrest]⟩
    rw [if_pos hprefix, hpath, List.drop_left, String.ofList_toList]

namespace Template

theorem toList_at (template : Template) (index : Nat) :
    (template.at index).toList = template.flatMap (spellSegment (Nat.toDigits 10 index)) :=
  String.toList_ofList

theorem toList_at_append (place rest : Template) (index : Nat) :
    ((place ++ rest).at index).toList = (place.at index).toList ++ (rest.at index).toList := by
  rw [toList_at, toList_at, toList_at, List.flatMap_append]

end Template

theorem restBelow?_at_append {place rest : Template} (hrest : rest ≠ []) (index : Nat) :
    restBelow? (place.at index) ((place ++ rest).at index) = some (rest.at index) := by
  obtain ⟨first, others, rfl⟩ := List.exists_cons_of_ne_nil hrest
  have hslash : (Template.at (first :: others) index).toList =
      '/' :: (first.body (Nat.toDigits 10 index)
        ++ others.flatMap (Template.spellSegment (Nat.toDigits 10 index))) := by
    rw [Template.toList_at, flatMap_spellSegment_eq_cons]
  exact restBelow?_eq_some_iff.mpr ⟨_, hslash, Template.toList_at_append _ _ _⟩

section Elsewhere

variable {place template : Template} {i j : Nat}

/-- A path below a place leads through the place. -/
theorem segments_prefix_of_restBelow? {rest : String} (hplace : place.IsProper)
    (htemplate : template.IsProper) (hi : 0 < i ∧ i < unwritableMagnitude)
    (hj : 0 < j ∧ j < unwritableMagnitude)
    (hbelow : restBelow? (place.at i) (template.at j) = some rest) :
    place.segments i <+: template.segments j := by
  obtain ⟨tail, hrest, hpath⟩ := restBelow?_eq_some_iff.mp hbelow
  have hpieces := congrArg (splitAt '/') hpath
  rw [hrest, splitAt_append_separator, splitAt_at hplace hi.1 hi.2, splitAt_at htemplate hj.1 hj.2,
    List.cons_append, List.cons_inj_right] at hpieces
  have hbodies : place.map (TemplateSegment.body (Nat.toDigits 10 i)) <+:
      template.map (TemplateSegment.body (Nat.toDigits 10 j)) := ⟨_, hpieces.symm⟩
  -- Piece by piece, the texts are read as the segments.
  have hread {template : Template} {index : Nat} (hproper : template.IsProper)
      (hindex : 0 < index ∧ index < unwritableMagnitude) :
      (template.map (TemplateSegment.body (Nat.toDigits 10 index))).map (readSegment true) =
        (template.segments index).map Except.ok := by
    rw [Template.segments_eq_map, List.map_map, List.map_map]
    exact List.map_congr_left fun segment hsegment =>
      readSegment_body hproper hindex.1 hindex.2 hsegment
  have hsegments := hbodies.map (readSegment true)
  rw [hread hplace hi, hread htemplate hj] at hsegments
  exact (List.prefix_map_iff_of_injective fun _ _ => Except.ok.inj).mp hsegments

theorem map_name_segments (template : Template) (index : Nat) :
    (template.segments index).map Segment.name = template.map TemplateSegment.name := by
  rw [Template.segments_eq_map, List.map_map]
  exact List.map_congr_left fun segment _ => by cases segment <;> rfl

/-- A template that does not go through the names of a place is not below it. -/
theorem restBelow?_eq_none_of_names (hplace : place.IsProper) (htemplate : template.IsProper)
    (hi : 0 < i ∧ i < unwritableMagnitude) (hj : 0 < j ∧ j < unwritableMagnitude)
    (hnames : ¬ place.map TemplateSegment.name <+: template.map TemplateSegment.name) :
    restBelow? (place.at i) (template.at j) = none := by
  refine Option.eq_none_iff_forall_ne_some.mpr fun rest hbelow => hnames ?_
  have hsegments := segments_prefix_of_restBelow? hplace htemplate hi hj hbelow
  rw [← map_name_segments place i, ← map_name_segments template j]
  exact hsegments.map Segment.name

end Elsewhere

end GeoMetadata.Path
