import GeoMetadata.Proofs.Document.AttributeOrder
import GeoMetadata.Proofs.Profile.Document

/-!
# How ids are taken

The ids of a document come from a supply of texts that is counted from 1.  Two sections take from
it, the one on the location and the one on the times, and each is told how many were taken before.

* Every section does as `TakesNext` says: the ids among its writes are the next ones of the supply,
  in order, and the number it passes on is that of all ids taken so far.  So the ids among the
  writes of a run are the first ones of the supply (`takesNext_allWrites`).
* No section looks at an id that it does not take (`Section.ReadsTaken`).  So a run comes out the
  same with every supply that begins with the same ids (`contributionsFrom_suppliedBy`).

The second needs the first: which ids the later sections take is told by the number that they begin
with, and this is where those before them stopped.

The location takes one id if it can be read, for the polygon, and none otherwise
(`identified_locationContribution`).  The times take one for each extent, at the number taken before
and the index of the extent (`identified_temporalContribution`).  All other sections are seen to
write no ids by their templates (`sections_takeInTurn`).
-/

namespace GeoMetadata.Profile

open Document (Trail bearers)
open GeoMetadata.Path (Template)

/-- The attribute that identifies an element. -/
def idName : String := "gml:id"

/-- The elements that writes give an id, with the ids. -/
def identified (writes : List Write) : List (Trail × String) :=
  bearers idName (writes.map Write.placement)

/-- The ids among some writes are the next ones after a number of them that are taken, in order,
and a number is then reached. -/
structure TakesNext (source : Source) (taken : Nat) (writes : List Write) (reached : Nat) :
    Prop where
  values : (identified writes).map Prod.snd =
    (List.range' (taken + 1) (identified writes).length).map source.gmlId
  reached : reached = taken + (identified writes).length

variable {source : Source} {progress : Progress} {writes before after : List Write}
  {given : Contribution} {taken reached : Nat}

/-! ## Putting writes together -/

theorem identified_append (before after : List Write) :
    identified (before ++ after) = identified before ++ identified after := by
  rw [identified, List.map_append, Document.bearers_append, identified, identified]

theorem identified_eq_nil (h : ∀ write ∈ writes, .attr idName ∉ write.template) :
    identified writes = [] := by
  rw [identified, bearers, List.filterMap_map, List.filterMap_eq_nil_iff]
  intro write hwrite
  have hnone : .attr idName ∉ write.placement.1 := by
    intro hmem
    have hsegment := List.mem_of_mem_tail hmem
    rw [Write.segments, Template.segments_eq_map] at hsegment
    obtain ⟨segment, hsegment, heq⟩ := List.mem_map.mp hsegment
    cases segment with
    | single name => cases heq
    | «repeated» name => cases heq
    | attr name =>
        obtain rfl := Segment.attr.inj heq
        exact h write hwrite hsegment
  rw [Function.comp_apply, Document.bearer?_eq_none hnone, Option.map_none]

theorem takesNext_of_forall_not_mem (h : ∀ write ∈ writes, .attr idName ∉ write.template) :
    TakesNext source taken writes taken where
  values := by rw [identified_eq_nil h]; rfl
  reached := by rw [identified_eq_nil h]; rfl

theorem TakesNext.append {between : Nat} (hbefore : TakesNext source taken before between)
    (hafter : TakesNext source between after reached) :
    TakesNext source taken (before ++ after) reached where
  values := by
    rw [identified_append, List.map_append, hbefore.values, hafter.values, hbefore.reached,
      List.length_append, Nat.add_right_comm, ← List.range'_append_1, List.map_append]
  reached := by
    rw [hafter.reached, hbefore.reached, identified_append, List.length_append, Nat.add_assoc]

theorem TakesNext.le (h : TakesNext source taken writes reached) : taken ≤ reached :=
  Nat.le.intro h.reached.symm

/-! ## The places of the ids -/

/-- The extent of the resource. -/
def extentTrail : Trail :=
  [("identificationInfo", 1), ("MD_DataIdentification", 1), ("extent", 1), ("EX_Extent", 1)]

/-- The polygon in a geographic element. -/
def polygonTrail (index : Nat) : Trail :=
  extentTrail ++ [("geographicElement", index), ("EX_BoundingPolygon", 1), ("polygon", 1),
    ("gml:Polygon", 1)]

/-- The name of the element of a temporal extent. -/
def TemporalExtent.elementName (extent : TemporalExtent) : String :=
  if extent.isInstant then "gml:TimeInstant" else "gml:TimePeriod"

/-- The instant or the period of a temporal extent. -/
def TemporalExtent.trail (extent : TemporalExtent) : Trail :=
  extentTrail ++ [("temporalElement", extent.index), ("EX_TemporalExtent", 1), ("extent", 1),
    (extent.elementName, 1)]

/-- The box of the location, if there is a location that can be read. -/
def Source.location? (source : Source) : Option BoundingBox :=
  ((source.record.string? Attribute.location).filter (· ≠ "")).bind fun location =>
    (WellKnownText.boundingBox location).toOption

/-- The temporal extents of the resource. -/
def Source.temporalExtents (source : Source) : Except ConversionFault (List TemporalExtent) := do
  let starts ← dateTexts (source.record.moments Attribute.start)
  let ends ← dateTexts (source.record.moments Attribute.end)
  .ok (pairExtents starts ends)

theorem map_index_temporalExtents {extents : List TemporalExtent}
    (h : source.temporalExtents = .ok extents) :
    extents.map TemporalExtent.index = List.range' 1 extents.length := by
  obtain ⟨starts, -, h⟩ := bind_eq_ok_iff.mp h
  obtain ⟨ends, -, h⟩ := bind_eq_ok_iff.mp h
  obtain rfl := Except.ok.inj h
  exact map_index_eq_range starts ends

theorem identified_boundingBoxContribution (source : Source) (progress : Progress)
    (box : BoundingBox) :
    identified (boundingBoxContribution source progress box).writes =
        [(polygonTrail (progress.geographic + 1), source.gmlId (progress.ids + 1))] ∧
      (boundingBoxContribution source progress box).progress.ids = progress.ids + 1 := by
  unfold boundingBoxContribution
  split
  · exact ⟨rfl, rfl⟩
  · rename_i bounds hbounds
    have hnone (index : Nat) : identified (boundWrites index bounds) = [] := by
      have htemplates : ∀ bound ∈ Layout.bounds, .attr idName ∉ Layout.boundNumber bound := by
        decide
      refine identified_eq_nil (List.forall_mem_map.mpr fun entry hentry => ?_)
      exact htemplates _ (List.of_mem_zip hentry).1
    rw [identified_append, hnone, List.append_nil]
    exact ⟨rfl, rfl⟩

/-- A location that can be read takes one id, for its polygon. -/
theorem identified_locationContribution (hok : locationContribution source progress = .ok given) :
    identified given.writes =
        (source.location?.map fun _ =>
          (polygonTrail (progress.geographic + 1), source.gmlId (progress.ids + 1))).toList ∧
      given.progress.ids = progress.ids + source.location?.toList.length := by
  unfold locationContribution at hok
  rw [Source.location?]
  split at hok
  · rename_i hnone
    obtain rfl := Except.ok.inj hok
    have htemplates : ∀ bound ∈ Layout.bounds, .attr idName ∉ bound := by decide
    have hempty (index : Nat) : identified (emptyBoundWrites index) = [] :=
      identified_eq_nil (List.forall_mem_map.mpr htemplates)
    rw [hnone]
    exact ⟨hempty _, rfl⟩
  · rename_i location hlocation
    rw [hlocation, Option.bind_some]
    split at hok
    · rename_i box hbox
      obtain rfl := Except.ok.inj hok
      rw [hbox]
      exact identified_boundingBoxContribution source progress box
    · rename_i hmalformed
      obtain rfl := Except.ok.inj hok
      rw [hmalformed]
      exact ⟨rfl, rfl⟩
    · cases hok

/-- Each temporal extent takes one id. -/
theorem identified_temporalContribution (hok : temporalContribution source progress = .ok given) :
    ∃ extents, source.temporalExtents = .ok extents ∧
      identified given.writes =
        extents.map (fun extent => (extent.trail, source.gmlId (progress.ids + extent.index))) ∧
      given.progress.ids = progress.ids + extents.length := by
  obtain ⟨starts, hstarts, hok⟩ := bind_eq_ok_iff.mp hok
  obtain ⟨ends, hends, hok⟩ := bind_eq_ok_iff.mp hok
  obtain rfl := Except.ok.inj hok
  have hextents : source.temporalExtents = .ok (pairExtents starts ends) :=
    bind_eq_ok_iff.mpr ⟨starts, hstarts, bind_eq_ok_iff.mpr ⟨ends, hends, rfl⟩⟩
  have hround (gmlId : String) (extent : TemporalExtent) :
      identified (extentWrites gmlId extent) = [(extent.trail, gmlId)] := by
    unfold extentWrites TemporalExtent.trail TemporalExtent.elementName
    split <;> rfl
  refine ⟨_, hextents, ?_, rfl⟩
  generalize pairExtents starts ends = extents
  induction extents with
  | nil => rfl
  | cons extent rest ih =>
      rw [List.flatMap_cons, identified_append, hround, ih, List.map_cons, List.singleton_append]

/-! ## Steps and runs

A section that writes no ids takes the next none of them, if it passes on the number that it is
told. So the table of templates is enough for all sections but two. -/

/-- The ids among what a section gives are the next ones. -/
def Section.TakesInTurn (part : Section) : Prop :=
  ∀ source progress given, part.contribute source progress = .ok given →
    TakesNext source progress.ids given.writes given.progress.ids

/-- The section passes on the number of ids that it is told. -/
def Section.KeepsIds (part : Section) : Prop :=
  ∀ source progress given, part.contribute source progress = .ok given →
    given.progress.ids = progress.ids

theorem Section.KeepsProgress.keepsIds {part : Section} (h : part.KeepsProgress) : part.KeepsIds :=
  fun source progress given hok => congrArg Progress.ids (h source progress given hok)

theorem keepsIds_plain (name : String) (writes : Source → List Write) :
    (Section.plain name writes).KeepsIds :=
  (keepsProgress_plain name writes).keepsIds

theorem keepsIds_checked (name : String) (writes : Source → Except ConversionFault (List Write)) :
    (Section.checked name writes).KeepsIds :=
  (keepsProgress_checked name writes).keepsIds

theorem Section.Arranges.takesInTurn {part : Section} {templates : List Template}
    (h : part.Arranges templates) (hkeeps : part.KeepsIds)
    (hnone : ∀ template ∈ templates, .attr idName ∉ template) : part.TakesInTurn := by
  intro source progress given hok
  rw [hkeeps _ _ _ hok]
  exact takesNext_of_forall_not_mem fun write hwrite =>
    hnone _ ((h _ _ _ hok).mem write hwrite)

theorem takesInTurn_location :
    Section.TakesInTurn ⟨"bounding_polygon", locationContribution⟩ := by
  intro source progress given hok
  obtain ⟨hidentified, hids⟩ := identified_locationContribution hok
  cases hlocation : source.location? with
  | none =>
      rw [hlocation] at hidentified hids
      exact ⟨by rw [hidentified]; rfl, by rw [hidentified]; exact hids⟩
  | some box =>
      rw [hlocation] at hidentified hids
      exact ⟨by rw [hidentified]; rfl, by rw [hidentified]; exact hids⟩

theorem takesInTurn_temporal :
    Section.TakesInTurn ⟨"temporal_elements", temporalContribution⟩ := by
  intro source progress given hok
  obtain ⟨extents, hextents, hidentified, hids⟩ := identified_temporalContribution hok
  constructor
  · rw [hidentified, List.map_map, List.length_map]
    calc extents.map
          (Prod.snd ∘ fun extent => (extent.trail, source.gmlId (progress.ids + extent.index)))
      _ = (extents.map TemporalExtent.index).map
            fun index => source.gmlId (progress.ids + index) := by
          rw [List.map_map]
          rfl
      _ = (List.range' (progress.ids + 1) extents.length).map source.gmlId := by
          rw [map_index_temporalExtents hextents, ← List.map_add_range', List.map_map]
          rfl
  · rw [hids, hidentified, List.length_map]

theorem forall_takesInTurn {parts : List Section} {all : List (List Template)}
    (harranges : List.Forall₂ Section.Arranges parts all) (hkeeps : ∀ part ∈ parts, part.KeepsIds)
    (hnone : ∀ templates ∈ all, ∀ template ∈ templates, .attr idName ∉ template) :
    ∀ part ∈ parts, part.TakesInTurn := by
  induction harranges with
  | nil => simp
  | cons hpart hrest ih =>
      rw [List.forall_mem_cons] at hkeeps hnone ⊢
      exact ⟨hpart.takesInTurn hkeeps.1 hnone.1, ih hkeeps.2 hnone.2⟩

theorem sections_takeInTurn : ∀ part ∈ sections, part.TakesInTurn := by
  -- All sections but two pass on the number that they are told, and write no ids.
  have hkeeps : ∀ part ∈ sections.take 19 ++ sections.drop 21, part.KeepsIds := by
    have hcountry : Section.KeepsIds ⟨"geographic_identifier", fun source progress =>
        .ok (countryContribution source progress)⟩ :=
      fun _ _ _ hok => Except.ok.inj hok ▸ rfl
    simp [sections, keepsIds_plain, keepsIds_checked, hcountry]
  have hnone : ∀ templates ∈ sectionTemplates.take 19 ++ sectionTemplates.drop 21,
      ∀ template ∈ templates, .attr idName ∉ template := by decide +kernel
  have harranges : List.Forall₂ Section.Arranges (sections.take 19 ++ sections.drop 21)
      (sectionTemplates.take 19 ++ sectionTemplates.drop 21) :=
    List.rel_append (List.forall₂_take 19 sections_arranges_sectionTemplates)
      (List.forall₂_drop 21 sections_arranges_sectionTemplates)
  have hothers := forall_takesInTurn harranges hkeeps hnone
  have hsections : sections = sections.take 19 ++ (⟨"bounding_polygon", locationContribution⟩
      :: ⟨"temporal_elements", temporalContribution⟩ :: sections.drop 21) := rfl
  rw [List.forall_mem_append] at hothers
  rw [hsections, List.forall_mem_append, List.forall_mem_cons, List.forall_mem_cons]
  exact ⟨hothers.1, takesInTurn_location, takesInTurn_temporal, hothers.2⟩

/-- The progress that is reached with some contributions, one after the other. -/
def lastProgress : Progress → List Contribution → Progress
  | progress, [] => progress
  | _, first :: rest => lastProgress first.progress rest

/-- The ids that are written in a run are the next ones, in order. -/
theorem takesNext_allWrites {parts : List Section} {given : List Contribution}
    (hparts : ∀ part ∈ parts, part.TakesInTurn)
    (hok : contributionsFrom source parts progress = .ok given) :
    TakesNext source progress.ids (allWrites given) (lastProgress progress given).ids := by
  -- By the sections: each takes on from where the one before it stopped.
  induction parts generalizing progress given with
  | nil =>
      obtain rfl := Except.ok.inj hok
      exact takesNext_of_forall_not_mem (by simp [allWrites])
  | cons part rest ih =>
      obtain ⟨hpart, hrest⟩ := List.forall_mem_cons.mp hparts
      obtain ⟨first, hfirst, hok⟩ := bind_eq_ok_iff.mp hok
      obtain ⟨others, hothers, hok⟩ := bind_eq_ok_iff.mp hok
      obtain rfl := Except.ok.inj hok
      rw [allWrites_cons]
      exact (hpart _ _ _ hfirst).append (ih hrest hothers)

theorem progress_runSections {parts : List Section} {draft done : Draft}
    (h : runSections source parts draft = (done, none)) :
    ∃ given, contributionsFrom source parts draft.progress = .ok given ∧
      done.progress = lastProgress draft.progress given := by
  induction parts generalizing draft with
  | nil => exact ⟨[], rfl, congrArg Draft.progress (Prod.mk.inj h).1.symm⟩
  | cons part rest ih =>
      rw [runSections] at h
      cases hextend : part.extend source draft with
      | error fault =>
          rw [hextend] at h
          cases h
      | ok extended =>
          rw [hextend] at h
          obtain ⟨first, hfirst, hadd⟩ := bind_eq_ok_iff.mp hextend
          obtain ⟨entries, -, rfl⟩ := add_eq_ok_iff.mp hadd
          obtain ⟨others, hothers, hprogress⟩ := ih h
          refine ⟨first :: others, ?_, hprogress⟩
          exact bind_eq_ok_iff.mpr ⟨first, hfirst, bind_eq_ok_iff.mpr ⟨others, hothers, rfl⟩⟩

theorem progress_run {tracker : Assignments} (hok : assignments source = .ok tracker) :
    ∃ given, contributions source = .ok given ∧
      (run source).1.progress = lastProgress Draft.start.progress given := by
  unfold assignments at hok
  split at hok
  · rename_i draft hrun
    rw [hrun]
    exact progress_runSections hrun
  · cases hok

/-! ## Other supplies

A section gets the whole supply, and it looks it up at the numbers that it takes and at no others.
-/

/-- The source with another supply of ids. -/
def Source.suppliedBy (source : Source) (gmlId : Nat → String) : Source :=
  { source with gmlId := gmlId }

/-- What the section gives depends on the ids that it takes, and not on others. -/
def Section.ReadsTaken (part : Section) : Prop :=
  ∀ source progress given gmlId, part.contribute source progress = .ok given →
    (∀ k, progress.ids < k → k ≤ given.progress.ids → gmlId k = source.gmlId k) →
    part.contribute (source.suppliedBy gmlId) progress = .ok given

theorem readsTaken_plain {name : String} {writes : Source → List Write}
    (h : ∀ (source : Source) gmlId, writes (source.suppliedBy gmlId) = writes source) :
    (Section.plain name writes).ReadsTaken := by
  intro source progress given gmlId hok _
  rw [← hok]
  exact congrArg (fun writes => Except.ok (Contribution.mk writes progress [])) (h source gmlId)

theorem readsTaken_checked {name : String} {writes : Source → Except ConversionFault (List Write)}
    (h : ∀ (source : Source) gmlId, writes (source.suppliedBy gmlId) = writes source) :
    (Section.checked name writes).ReadsTaken := by
  intro source progress given gmlId hok _
  rw [← hok]
  exact congrArg (Except.map fun writes => Contribution.mk writes progress []) (h source gmlId)

theorem readsTaken_location :
    Section.ReadsTaken ⟨"bounding_polygon", locationContribution⟩ := by
  intro source progress given gmlId hok hsame
  have hrecord : (source.suppliedBy gmlId).record = source.record := rfl
  change locationContribution source progress = .ok given at hok
  show locationContribution (source.suppliedBy gmlId) progress = .ok given
  unfold locationContribution at hok ⊢
  rw [hrecord]
  split at hok
  · exact hok
  · split at hok
    · rename_i box _
      obtain rfl := Except.ok.inj hok
      have htaken := (identified_boundingBoxContribution source progress box).2
      have hid : gmlId (progress.ids + 1) = source.gmlId (progress.ids + 1) :=
        hsame _ (Nat.lt_succ_self _) htaken.ge
      simp only [boundingBoxContribution, Source.suppliedBy, hid]
    · exact hok
    · cases hok

theorem readsTaken_temporal :
    Section.ReadsTaken ⟨"temporal_elements", temporalContribution⟩ := by
  intro source progress given gmlId hok hsame
  obtain ⟨starts, hstarts, hok⟩ := bind_eq_ok_iff.mp hok
  obtain ⟨ends, hends, hok⟩ := bind_eq_ok_iff.mp hok
  obtain rfl := Except.ok.inj hok
  have hwrites : (pairExtents starts ends).flatMap (fun extent =>
      extentWrites (gmlId (progress.ids + extent.index)) extent) =
        (pairExtents starts ends).flatMap fun extent =>
          extentWrites (source.gmlId (progress.ids + extent.index)) extent := by
    refine List.flatMap_congr fun extent hextent => ?_
    obtain ⟨hpositive, hlast⟩ := index_bounds_of_mem_pairExtents hextent
    rw [hsame _ (Nat.lt_add_of_pos_right hpositive) (Nat.add_le_add_left hlast _)]
  refine bind_eq_ok_iff.mpr ⟨starts, hstarts, bind_eq_ok_iff.mpr ⟨ends, hends, ?_⟩⟩
  rw [← hwrites]
  rfl

theorem sections_readTaken : ∀ part ∈ sections, part.ReadsTaken := by
  simp only [sections, List.forall_mem_cons]
  exact
    ⟨readsTaken_plain fun _ _ => rfl, readsTaken_plain fun _ _ => rfl,
      readsTaken_plain fun _ _ => rfl, readsTaken_plain fun _ _ => rfl,
      readsTaken_plain fun _ _ => rfl, readsTaken_plain fun _ _ => rfl,
      readsTaken_checked fun _ _ => rfl, readsTaken_plain fun _ _ => rfl,
      readsTaken_plain fun _ _ => rfl, readsTaken_checked fun _ _ => rfl,
      readsTaken_plain fun _ _ => rfl, readsTaken_plain fun _ _ => rfl,
      readsTaken_plain fun _ _ => rfl, readsTaken_plain fun _ _ => rfl,
      readsTaken_checked fun _ _ => rfl, readsTaken_plain fun _ _ => rfl,
      readsTaken_plain fun _ _ => rfl, readsTaken_plain fun _ _ => rfl,
      fun _ _ _ _ hok _ => hok, readsTaken_location, readsTaken_temporal,
      readsTaken_checked fun _ _ => rfl, readsTaken_checked fun _ _ => rfl,
      readsTaken_plain fun _ _ => rfl, readsTaken_checked fun _ _ => rfl, by simp⟩

/-- A run comes out the same with a supply that differs only in ids that the run does not take. -/
theorem contributionsFrom_suppliedBy {parts : List Section} {given : List Contribution}
    {gmlId : Nat → String} (htakes : ∀ part ∈ parts, part.TakesInTurn)
    (hreads : ∀ part ∈ parts, part.ReadsTaken)
    (hok : contributionsFrom source parts progress = .ok given)
    (hsame : ∀ k, progress.ids < k → k ≤ (lastProgress progress given).ids →
      gmlId k = source.gmlId k) :
    contributionsFrom (source.suppliedBy gmlId) parts progress = .ok given := by
  induction parts generalizing progress given with
  | nil => exact hok
  | cons part rest ih =>
      rw [List.forall_mem_cons] at htakes hreads
      obtain ⟨first, hfirst, hok⟩ := bind_eq_ok_iff.mp hok
      obtain ⟨others, hothers, hok⟩ := bind_eq_ok_iff.mp hok
      obtain rfl := Except.ok.inj hok
      -- What is taken by the first section and by the others is all within the run.
      have hbefore := (htakes.1 _ _ _ hfirst).le
      have hafter := (takesNext_allWrites htakes.2 hothers).le
      have hfirst := hreads.1 _ _ _ gmlId hfirst fun k hk hlast => hsame k hk (hlast.trans hafter)
      have hothers := ih htakes.2 hreads.2 hothers fun k hk hlast =>
        hsame k (hbefore.trans_lt hk) hlast
      exact bind_eq_ok_iff.mpr ⟨first, hfirst, bind_eq_ok_iff.mpr ⟨others, hothers, rfl⟩⟩

/-- A conversion comes out the same with every supply that begins with the ids taken. -/
theorem assignments_suppliedBy {tracker : Assignments} {gmlId : Nat → String}
    (hok : assignments source = .ok tracker)
    (hsame : ∀ k, 1 ≤ k → k ≤ (run source).1.progress.ids → gmlId k = source.gmlId k) :
    assignments (source.suppliedBy gmlId) = .ok tracker := by
  obtain ⟨given, hgiven, hprogress⟩ := progress_run hok
  rw [hprogress] at hsame
  obtain ⟨others, entries, hothers, hentries, rfl⟩ := assignments_eq_ok_iff.mp hok
  obtain rfl := Except.ok.inj (hgiven.symm.trans hothers)
  exact assignments_eq_ok_iff.mpr ⟨given, entries,
    contributionsFrom_suppliedBy sections_takeInTurn sections_readTaken hgiven hsame, hentries, rfl⟩

end GeoMetadata.Profile
