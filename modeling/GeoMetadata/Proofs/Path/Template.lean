import GeoMetadata.Proofs.Path.Filling
import GeoMetadata.Proofs.Path.Rendering

/-!
# Templates and the paths that are read from them

A template is made for its text to be filled with an index and for the path to be read again.
Both work if the template is *proper*: its names are not empty and have none of the characters
that paths and placeholders are made of, and only its last segment is an attribute.  Then

* filling the text with an index gives the spelling with that index (`fill_text`), because the
  per cent sign marks the placeholders and nothing else;
* reading the spelling gives the segments (`read_at`), because these are renderable
  (`Template.IsProper.isRenderable`), and the spelling is a rendering of them.
-/

namespace GeoMetadata.Path

open Number Text

/-! ## Proper templates -/

/-- The name is not empty and has no character that paths and placeholders are made of. -/
def isPlainName (name : String) : Bool :=
  name != "" && name.toList.all fun c => isNameChar c && c != '%'

/-- The name in a segment of a template. -/
def TemplateSegment.name : TemplateSegment → String
  | .single name => name
  | .repeated name => name
  | .attr name => name

/-- The segment of a path that a segment of a template is for an index. -/
def TemplateSegment.segment (index : Nat) : TemplateSegment → Segment
  | .single name => .element name 1
  | .repeated name => .element name index
  | .attr name => .attr name

/-- The spelling of a segment without the slash. -/
def TemplateSegment.body (index : List Char) : TemplateSegment → List Char
  | .single name => name.toList
  | .repeated name => name.toList ++ '[' :: index ++ [']']
  | .attr name => '@' :: name.toList

namespace Template

/-- There are segments, and only the last may be an attribute. -/
def isShaped : Template → Bool
  | [] => false
  | [_] => true
  | .attr _ :: _ :: _ => false
  | _ :: rest => isShaped rest

/-- The template has the shape of a path, and its names are plain. -/
structure IsProper (template : Template) : Prop where
  shaped : template.isShaped = true
  plain : ∀ segment ∈ template, isPlainName segment.name = true

theorem spellSegment_eq_cons (index : List Char) (segment : TemplateSegment) :
    spellSegment index segment = '/' :: segment.body index := by
  cases segment <;> rfl

theorem segments_eq_map (template : Template) (index : Nat) :
    template.segments index = template.map (TemplateSegment.segment index) :=
  List.map_congr_left fun segment _ => by cases segment <;> rfl

theorem segments_cons (first : TemplateSegment) (rest : Template) (index : Nat) :
    segments (first :: rest) index = first.segment index :: segments rest index := by
  rw [segments_eq_map, segments_eq_map, List.map_cons]

end Template

/-! ## Filling -/

theorem placeholder_eq_cons : placeholder = '%' :: placeholder.tail := rfl

/-- Text without a per cent sign is kept. -/
theorem replaceAll_append_of_not_mem {new before : List Char} (rest : List Char)
    (hfree : '%' ∉ before) :
    replaceAll placeholder new (before ++ rest) = before ++ replaceAll placeholder new rest := by
  induction before with
  | nil => rfl
  | cons c before ih =>
      have hc : ('%' == c) = false := beq_eq_false_iff_ne.mpr (List.ne_of_not_mem_cons hfree)
      have hhead : placeholder.isPrefixOf (c :: (before ++ rest)) = false := by
        rw [placeholder_eq_cons, List.isPrefixOf_cons_cons, hc, Bool.false_and]
      rw [List.cons_append, replaceAll_cons hhead, ih (List.not_mem_of_not_mem_cons hfree),
        List.cons_append]

theorem not_mem_of_isPlainName {name : String} {c : Char} (hplain : isPlainName name = true)
    (hspecial : isNameChar c = false ∨ c = '%') : c ∉ name.toList := by
  intro hc
  rw [isPlainName, Bool.and_eq_true, List.all_eq_true] at hplain
  have hchar := hplain.2 c hc
  rcases hspecial with hspecial | rfl
  · simp [hspecial] at hchar
  · simp at hchar

theorem isName_of_isPlainName {name : String} (hplain : isPlainName name = true) :
    IsName name.toList := by
  rw [isPlainName, Bool.and_eq_true, bne_iff_ne, List.all_eq_true] at hplain
  refine ⟨by simpa using hplain.1, fun c hc => ?_⟩
  have hchar := hplain.2 c hc
  rw [Bool.and_eq_true] at hchar
  exact hchar.1

theorem replaceAll_spellSegment {segment : TemplateSegment} {new rest : List Char}
    (hplain : isPlainName segment.name = true) :
    replaceAll placeholder new (Template.spellSegment placeholder segment ++ rest) =
      Template.spellSegment new segment ++ replaceAll placeholder new rest := by
  have hname : '%' ∉ segment.name.toList := not_mem_of_isPlainName hplain (.inr rfl)
  cases segment with
  | single name =>
      exact replaceAll_append_of_not_mem rest
        (List.not_mem_cons_of_ne_of_not_mem (by decide) hname)
  | attr name =>
      exact replaceAll_append_of_not_mem rest
        (List.not_mem_cons_of_ne_of_not_mem (by decide)
          (List.not_mem_cons_of_ne_of_not_mem (by decide) hname))
  | «repeated» name =>
      -- The placeholder stands between two pieces of text that have no per cent sign.
      have hopen : '%' ∉ '/' :: name.toList ++ ['['] := by
        simp only [List.cons_append, List.mem_cons, List.mem_append, List.not_mem_nil]
        simp [TemplateSegment.name] at hname
        simp [hname]
      have hclose : '%' ∉ [']'] := by decide
      have hspell (index : List Char) : Template.spellSegment index (.repeated name) ++ rest =
          ('/' :: name.toList ++ ['[']) ++ (index ++ ([']'] ++ rest)) := by
        simp [Template.spellSegment]
      have hspell' : Template.spellSegment new (.repeated name) ++ replaceAll placeholder new rest =
          ('/' :: name.toList ++ ['[']) ++ (new ++ ([']'] ++ replaceAll placeholder new rest)) := by
        simp [Template.spellSegment]
      rw [hspell, hspell', replaceAll_append_of_not_mem _ hopen, replaceAll_append_self (by decide),
        replaceAll_append_of_not_mem _ hclose]

theorem replaceAll_flatMap {segments : Template} {new : List Char}
    (hplain : ∀ segment ∈ segments, isPlainName segment.name = true) :
    replaceAll placeholder new (segments.flatMap (Template.spellSegment placeholder)) =
      segments.flatMap (Template.spellSegment new) := by
  induction segments with
  | nil => rfl
  | cons segment rest ih =>
      obtain ⟨hsegment, hrest⟩ := List.forall_mem_cons.mp hplain
      rw [List.flatMap_cons, List.flatMap_cons, replaceAll_spellSegment hsegment, ih hrest]

/-- Filling the text of a template with an index gives its path. -/
theorem fill_text {template : Template} {index : Nat} (hproper : template.IsProper)
    (hpositive : 0 < index) (hindex : index < unwritableMagnitude) :
    fill template.text index = .ok (template.at index) := by
  refine fill_eq_ok_iff.mpr ⟨Int.natCast_pos.mpr hpositive, hindex, ?_⟩
  rw [Template.text, Template.at, Template.spell, Template.spell, String.toList_ofList,
    replaceAll_flatMap hproper.plain, Int.natAbs_natCast]

/-! ## Reading -/

/-- The spelling of a segment is a rendering of the segment for the index. -/
theorem isRendering_body (segment : TemplateSegment) (index : Nat) :
    IsRendering (segment.segment index) (segment.body (Nat.toDigits 10 index)) := by
  cases segment with
  | single name => exact .short name
  | «repeated» name =>
      simpa [TemplateSegment.body, TemplateSegment.segment] using IsRendering.full name index
  | attr name => exact .attr name

theorem at_eq_slashed (template : Template) (index : Nat) : template.at index =
    slashed (template.map (TemplateSegment.body (Nat.toDigits 10 index))) := by
  have hspell : Template.spellSegment (Nat.toDigits 10 index) =
      fun segment => '/' :: segment.body (Nat.toDigits 10 index) :=
    funext (Template.spellSegment_eq_cons _)
  rw [Template.at, Template.spell, slashed, List.flatMap_map, hspell]

theorem forall₂_isRendering_body (template : Template) (index : Nat) :
    List.Forall₂ IsRendering (template.segments index)
      (template.map (TemplateSegment.body (Nat.toDigits 10 index))) := by
  rw [Template.segments_eq_map, List.forall₂_map_left_iff, List.forall₂_map_right_iff,
    List.forall₂_same]
  exact fun segment _ => isRendering_body segment index

/-- Only the last segment of a template of the right shape is an attribute. -/
theorem isAttribute_of_isShaped {template : Template} {index : Nat}
    (hshaped : template.isShaped = true) :
    ∀ segment ∈ (template.segments index).dropLast, segment.isAttribute = false := by
  rw [Template.segments_eq_map]
  induction template using Template.isShaped.induct with
  | case1 => simp
  | case2 last => simp
  | case3 name next rest => simp [Template.isShaped] at hshaped
  | case4 first rest hrest hattr ih =>
      rw [Template.isShaped.eq_4 _ _ hrest hattr] at hshaped
      obtain ⟨next, others, rfl⟩ := List.exists_cons_of_ne_nil hrest
      rw [List.map_cons, List.map_cons, List.dropLast_cons_cons, List.forall_mem_cons]
      refine ⟨?_, ih hshaped⟩
      cases first with
      | attr name => exact absurd rfl (hattr name next others rfl)
      | single name => rfl
      | «repeated» name => rfl

theorem Template.IsProper.isRenderable {template : Template} {index : Nat}
    (hproper : template.IsProper) (hpositive : 0 < index) (hindex : index < unwritableMagnitude) :
    IsRenderable (template.segments index) := by
  -- What is asked of a name holds of plain ones.
  have hplain : ∀ segment ∈ template.segments index, isPlainName segment.name = true := by
    rw [segments_eq_map, List.forall_mem_map]
    intro segment hsegment
    cases segment <;> exact hproper.plain _ hsegment
  have hcount : ∀ name n, .element name n ∈ template.segments index → n = 1 ∨ n = index := by
    intro name n hmem
    rw [segments_eq_map, List.mem_map] at hmem
    obtain ⟨segment, -, heq⟩ := hmem
    cases segment <;> cases heq
    · exact .inl rfl
    · exact .inr rfl
  have hsome : template.segments index ≠ [] := by
    rw [segments_eq_map, Ne, List.map_eq_nil_iff]
    rintro rfl
    cases hproper.shaped
  refine ⟨⟨hsome, fun name n hmem => ?_, isAttribute_of_isShaped hproper.shaped⟩,
    fun name n hmem => ?_, fun name hmem => ?_, fun segment hmem => ?_⟩
  · obtain ⟨hsome, hchars⟩ := isName_toList_iff.mp (isName_of_isPlainName (hplain _ hmem))
    exact ⟨hsome, hchars, by rcases hcount name n hmem with rfl | rfl <;> omega⟩
  · rcases hcount name n hmem with rfl | rfl
    · exact one_lt_unwritableMagnitude
    · exact hindex
  · exact not_mem_of_isPlainName (hplain _ hmem) (.inl rfl)
  · rw [← contains_eq_false_iff]
    exact contains_eq_false (by decide) (not_mem_of_isPlainName (hplain _ hmem) (.inr rfl))

theorem flatMap_spellSegment_eq_cons {first : TemplateSegment} {rest : Template}
    {index : List Char} :
    (first :: rest).flatMap (Template.spellSegment index) =
      '/' :: (first.body index ++ rest.flatMap (Template.spellSegment index)) := by
  rw [List.flatMap_cons, Template.spellSegment_eq_cons, List.cons_append]

/-- A path that is read has no placeholder left. -/
theorem contains_placeholder_of_read_eq_ok {path : String} {segments : List Segment}
    (hok : read path = .ok segments) : contains placeholder path.toList = false := by
  rcases isPartedInto_or_form path with ⟨texts, hparts⟩ | ⟨fault, hform⟩
  · exact hparts.filled
  · rw [hform] at hok
    cases hok

/-- The spelling of each segment of a template is read as the segment. -/
theorem readSegment_body {template : Template} {index : Nat} (hproper : template.IsProper)
    (hpositive : 0 < index) (hindex : index < unwritableMagnitude) {segment : TemplateSegment}
    (hsegment : segment ∈ template) :
    readSegment true (segment.body (Nat.toDigits 10 index)) = .ok (segment.segment index) := by
  have hrender := hproper.isRenderable hpositive hindex
  have hmem : segment.segment index ∈ template.segments index := by
    rw [Template.segments_eq_map]
    exact List.mem_map_of_mem hsegment
  have hspelled := (isRendering_body segment index).spellsSegment fun name n heq =>
    hrender.index name n (heq ▸ hmem)
  exact readSegment_of_spellsSegment hspelled (fun name n heq => hrender.isName (heq ▸ hmem))
    (.inl rfl)

/-- The slashes of the path of a template part the spellings of its segments. -/
theorem splitAt_at {template : Template} {index : Nat} (hproper : template.IsProper)
    (hpositive : 0 < index) (hindex : index < unwritableMagnitude) :
    splitAt '/' (template.at index).toList =
      [] :: template.map (TemplateSegment.body (Nat.toDigits 10 index)) := by
  have hrender := hproper.isRenderable hpositive hindex
  rw [at_eq_slashed]
  exact (isPartedInto_slashed hrender
    (forall₂_spellsSegment hrender (forall₂_isRendering_body template index))).splitAt_eq

/-- The path of a template is read as its segments. -/
theorem read_at {template : Template} {index : Nat} (hproper : template.IsProper)
    (hpositive : 0 < index) (hindex : index < unwritableMagnitude) :
    read (template.at index) = .ok (template.segments index) := by
  rw [at_eq_slashed]
  exact read_slashed (hproper.isRenderable hpositive hindex) (forall₂_isRendering_body template index)

end GeoMetadata.Path
