import GeoMetadata.Proofs.Profile.IdSupply
import GeoMetadata.Proofs.Profile.SiblingIndices
import Mathlib.Data.List.Nodup

/-!
# The ids of a record's document

Ids are taken while a record is converted, and they are read in its document, and nothing in the
document says when an id was taken.  That they are read in the order in which they are taken
(`ids_taken_in_order`) comes down to three things.

* The values of an attribute are read in document order if the children of every element ascend
  (`ascending_of_mem_nodes`) and the attributes are written in that order too
  (`pairwise_identified_allWrites`): the polygon comes before the times, and the times are numbered.
* What is written is what is taken, one after the other (`takesNext_allWrites`).
* An element of a name that goes with an id has one, because whatever is written about it comes with
  the id (`complete_allWrites`).  So ids can be counted by the polygons, instants and periods of the
  document.

The writes on the location and on the times stand next to each other (`exists_extent_split`), and no
others have to do with ids.  So the elements with ids are known one by one, by their trails
(`trails_identified_allWrites`), and what is said about all of them is said about one polygon at
most and a numbered list of extents.
-/

namespace GeoMetadata.Profile

open Document (Trail Earlier elements endName place)
open GeoMetadata.Path (Template)

variable {source : Source} {tracker : Assignments} {given : List Contribution}
  {writes before after : List Write}

/-- The document of what the sections give. -/
def documentOf (given : List Contribution) : Node :=
  place ((allWrites given).map Write.placement) (.leaf Layout.rootName 1)

/-! ## Document order

That the children of an element ascend needs the order of their names, which is the contract's, and
that of their indices, which is known also where these do not begin with 1. -/

theorem pairwise_indicesAt (counter : Counter)
    (hmem : ∀ write ∈ allWrites given, write.template ∈ documentTemplates)
    (hgiven : contributions source = .ok given) :
    (indicesAt counter (allWrites given)).Pairwise (· < ·) := by
  by_cases hcounter : counter = resourceConstraints
  · subst hcounter
    obtain ⟨hsecured, hnone⟩ := indicesAt_resourceConstraints hmem hgiven
    by_cases h : source.IsSecured
    · rw [hsecured h]
      decide
    · rw [hnone h]
      decide
  · obtain ⟨count, hrange⟩ := exists_indicesAt_eq_range hcounter hmem hgiven
    rw [hrange]
    exact List.pairwise_lt_range' 1

/-- The children of every element stand by the contract and, under one name, by their indices. -/
theorem ascending_of_mem_nodes (h : Composed source tracker (allWrites given))
    (hgiven : contributions source = .ok given) :
    ∀ node ∈ (documentOf given).nodes, node.Ascending rank := by
  have hindices : ∀ node ∈ (documentOf given).nodes, ∀ name,
      ((node.indicesOf name).map Int.toNat).Pairwise (· < ·) := by
    refine Document.forall_mem_nodes_place_of_seenFrom fun trail index _ name => ?_
    have hnumbers := pairwise_indicesAt ((Layout.rootName, 1) :: trail, name) h.arranged.mem hgiven
    rw [Document.indicesOf_place_seenFrom, filterMap_indexAt?_placement h.arranged.mem,
      List.map_map]
    have hcast : Int.toNat ∘ Nat.cast = id := funext Int.toNat_natCast
    rwa [hcast, List.map_id]
  intro node hnode
  have horder := (Document.unmixed_and_inOrder_of_pairwise h.placed.precedes node hnode).2
  exact horder.ascending (hindices node hnode)

/-! ## The ids among the writes -/

/-- The writes on the location and those on the times stand next to each other, and no others are
about elements with ids. -/
theorem exists_extent_split (hok : contributions source = .ok given) :
    ∃ before location temporal after p q, locationContribution source p = .ok location ∧
      temporalContribution source q = .ok temporal ∧
      allWrites given = before ++ (location.writes ++ (temporal.writes ++ after)) ∧
      ∀ write ∈ before ++ after, write.template ∈
        (sectionTemplates.take 19 ++ sectionTemplates.drop 21).flatten := by
  have hsections : sections = sections.take 19 ++ ([⟨"bounding_polygon", locationContribution⟩,
      ⟨"temporal_elements", temporalContribution⟩] ++ sections.drop 21) := rfl
  obtain ⟨before, own, after, progress, hown, hall, hbefore, hafter⟩ :=
    exists_allWrites_around hsections hok
  obtain ⟨location, hlocation, hown⟩ := bind_eq_ok_iff.mp hown
  obtain ⟨others, hothers, hown⟩ := bind_eq_ok_iff.mp hown
  obtain rfl := Except.ok.inj hown
  obtain ⟨temporal, htemporal, hothers⟩ := bind_eq_ok_iff.mp hothers
  obtain rfl := Except.ok.inj hothers
  refine ⟨before, location, temporal, after, progress, location.progress, hlocation, htemporal,
    ?_, ?_⟩
  · rw [hall, allWrites_cons, allWrites_cons]
    simp [allWrites]
  · rw [List.forall_mem_append, List.flatten_append]
    exact ⟨fun write hwrite => List.mem_append_left _ (hbefore write hwrite),
      fun write hwrite => List.mem_append_right _ (hafter write hwrite)⟩

theorem trails_identified_allWrites (hok : contributions source = .ok given) :
    ∃ extents index, source.temporalExtents = .ok extents ∧
      (identified (allWrites given)).map Prod.fst =
        (source.location?.map fun _ => polygonTrail index).toList
          ++ extents.map TemporalExtent.trail := by
  have htemplates : ∀ template ∈ (sectionTemplates.take 19 ++ sectionTemplates.drop 21).flatten,
      .attr idName ∉ template := by decide +kernel
  obtain ⟨before, location, temporal, after, p, q, hlocation, htemporal, hall, helsewhere⟩ :=
    exists_extent_split hok
  rw [List.forall_mem_append] at helsewhere
  have hbefore : identified before = [] :=
    identified_eq_nil fun write hwrite => htemplates _ (helsewhere.1 write hwrite)
  have hafter : identified after = [] :=
    identified_eq_nil fun write hwrite => htemplates _ (helsewhere.2 write hwrite)
  obtain ⟨hpolygon, -⟩ := identified_locationContribution hlocation
  obtain ⟨extents, hextents, htimes, -⟩ := identified_temporalContribution htemporal
  refine ⟨extents, p.geographic + 1, hextents, ?_⟩
  rw [hall, identified_append, identified_append, identified_append, hbefore, hafter, hpolygon,
    htimes]
  cases source.location? <;> simp [Function.comp_def]

/-- The ids are written in document order. -/
theorem pairwise_identified_allWrites (hok : contributions source = .ok given) :
    (identified (allWrites given)).Pairwise fun first second =>
      Earlier rank Layout.rootName first.1 second.1 := by
  obtain ⟨extents, index, hextents, htrails⟩ := trails_identified_allWrites hok
  have hbelow {first second : Trail} (h : Earlier rank "EX_Extent" first second) :
      Earlier rank Layout.rootName (extentTrail ++ first) (extentTrail ++ second) :=
    Document.Earlier.append_left extentTrail h
  have hearlier : ((identified (allWrites given)).map Prod.fst).Pairwise
      (Earlier rank Layout.rootName) := by
    rw [htrails, List.pairwise_append]
    -- There is one polygon at most, the times go by their numbers, and the contract has the polygon
    -- first.
    refine ⟨?polygon, ?times, ?cross⟩
    case polygon => cases source.location? <;> simp
    case times =>
      have hincreasing : (extents.map TemporalExtent.index).Pairwise (· < ·) := by
        rw [map_index_temporalExtents hextents]
        exact List.pairwise_lt_range' 1
      rw [List.pairwise_map] at hincreasing ⊢
      refine hincreasing.imp fun {first second} hless => hbelow ?_
      rw [Earlier, if_pos rfl]
      exact .inl hless
    case cross =>
      intro first hfirst second hsecond
      obtain ⟨box, -, rfl⟩ := Option.map_eq_some_iff.mp (Option.mem_toList.mp hfirst)
      obtain ⟨extent, -, rfl⟩ := List.mem_map.mp hsecond
      refine hbelow ?_
      have hrank : rank "EX_Extent" "geographicElement" < rank "EX_Extent" "temporalElement" := by
        decide
      rw [Earlier, if_neg (by decide)]
      exact hrank
  exact List.pairwise_map.mp hearlier

/-! ## The elements with ids

A write comes with the id of its element if that is among the writes of its section, so that this is
shown section by section (`Complete.append`). -/

/-- The elements that have ids. -/
def idElements : List Template :=
  [Layout.polygon, Layout.down Layout.temporal ["gml:TimeInstant"],
    Layout.down Layout.temporal ["gml:TimePeriod"]]

/-- The names of the elements of temporal extents. -/
def extentNames : List String := ["gml:TimeInstant", "gml:TimePeriod"]

/-- The names of the elements that have ids. -/
def identifiedNames : List String := "gml:Polygon" :: extentNames

/-- Wherever something is written about an element that has an id, the id is written too. -/
def Complete (writes : List Write) : Prop :=
  ∀ write ∈ writes, ∀ element ∈ idElements, element <+: write.template →
    ∃ value, (⟨Layout.attr element idName, write.index, value⟩ : Write) ∈ writes

theorem Complete.append (hbefore : Complete before) (hafter : Complete after) :
    Complete (before ++ after) := by
  intro write hwrite element helement hprefix
  rcases List.mem_append.mp hwrite with hwrite | hwrite
  · obtain ⟨value, hmem⟩ := hbefore write hwrite element helement hprefix
    exact ⟨value, List.mem_append_left _ hmem⟩
  · obtain ⟨value, hmem⟩ := hafter write hwrite element helement hprefix
    exact ⟨value, List.mem_append_right _ hmem⟩

theorem complete_of_forall_elsewhere
    (h : ∀ write ∈ writes, ∀ element ∈ idElements, ¬ element <+: write.template) :
    Complete writes :=
  fun write hwrite element helement hprefix => absurd hprefix (h write hwrite element helement)

/-- Writes about one element, with its id. -/
theorem complete_of_forall_eq {element : Template} {index : Nat} {value : String}
    (hid : ⟨Layout.attr element idName, index, value⟩ ∈ writes)
    (hindex : ∀ write ∈ writes, write.index = index)
    (honly : ∀ template ∈ writes.map Write.template, ∀ other ∈ idElements,
      other <+: template → other = element) :
    Complete writes := by
  intro write hwrite other hother hprefix
  rw [honly _ (List.mem_map_of_mem hwrite) other hother hprefix, hindex write hwrite]
  exact ⟨value, hid⟩

theorem complete_locationContribution {progress : Progress} {part : Contribution}
    (hok : locationContribution source progress = .ok part) : Complete part.writes := by
  have hbounds : ∀ bound ∈ Layout.bounds ++ Layout.bounds.map Layout.boundNumber,
      ∀ element ∈ idElements, ¬ element <+: bound := by decide
  rw [List.forall_mem_append, List.forall_mem_map] at hbounds
  have hpolygon (index : Nat) (id srsName positions : String) :
      Complete [⟨Layout.polygonId, index, id⟩, ⟨Layout.polygonSrsName, index, srsName⟩,
        ⟨Layout.polygonPositions, index, positions⟩] := by
    have honly : ∀ template ∈ [Layout.polygonId, Layout.polygonSrsName, Layout.polygonPositions],
        ∀ other ∈ idElements, other <+: template → other = Layout.polygon := by decide
    exact complete_of_forall_eq List.mem_cons_self (by simp) honly
  unfold locationContribution at hok
  split at hok
  · obtain rfl := Except.ok.inj hok
    exact complete_of_forall_elsewhere (List.forall_mem_map.mpr hbounds.1)
  · split at hok
    · rename_i box _
      obtain rfl := Except.ok.inj hok
      unfold boundingBoxContribution
      split
      · exact hpolygon _ _ _ _
      · refine (hpolygon _ _ _ _).append (complete_of_forall_elsewhere ?_)
        exact List.forall_mem_map.mpr fun entry hentry =>
          hbounds.2 _ (List.of_mem_zip hentry).1
    · obtain rfl := Except.ok.inj hok
      exact complete_of_forall_elsewhere (by simp)
    · cases hok

theorem complete_temporalContribution {progress : Progress} {part : Contribution}
    (hok : temporalContribution source progress = .ok part) : Complete part.writes := by
  obtain ⟨starts, -, hok⟩ := bind_eq_ok_iff.mp hok
  obtain ⟨ends, -, hok⟩ := bind_eq_ok_iff.mp hok
  obtain rfl := Except.ok.inj hok
  have hround (gmlId : String) (extent : TemporalExtent) :
      Complete (extentWrites gmlId extent) := by
    have hinstant : ∀ template ∈ [Layout.instantId, Layout.instantPosition],
        ∀ other ∈ idElements, other <+: template →
          other = Layout.down Layout.temporal ["gml:TimeInstant"] := by decide
    have hperiod : ∀ template ∈ [Layout.periodId, Layout.periodBegin, Layout.periodEnd],
        ∀ other ∈ idElements, other <+: template →
          other = Layout.down Layout.temporal ["gml:TimePeriod"] := by decide
    unfold extentWrites
    split
    · exact complete_of_forall_eq List.mem_cons_self (by simp) hinstant
    · exact complete_of_forall_eq List.mem_cons_self (by simp) hperiod
  generalize pairExtents starts ends = extents
  induction extents with
  | nil => exact complete_of_forall_elsewhere (by simp)
  | cons extent rest ih =>
      rw [List.flatMap_cons]
      exact (hround _ _).append ih

theorem complete_allWrites (hok : contributions source = .ok given) :
    Complete (allWrites given) := by
  have htemplates : ∀ template ∈ (sectionTemplates.take 19 ++ sectionTemplates.drop 21).flatten,
      ∀ element ∈ idElements, ¬ element <+: template := by decide +kernel
  obtain ⟨before, location, temporal, after, p, q, hlocation, htemporal, hall, helsewhere⟩ :=
    exists_extent_split hok
  rw [List.forall_mem_append] at helsewhere
  have hbefore : Complete before :=
    complete_of_forall_elsewhere fun write hwrite => htemplates _ (helsewhere.1 write hwrite)
  have hafter : Complete after :=
    complete_of_forall_elsewhere fun write hwrite => htemplates _ (helsewhere.2 write hwrite)
  rw [hall]
  exact hbefore.append ((complete_locationContribution hlocation).append
    ((complete_temporalContribution htemporal).append hafter))

/-! ## The document -/

theorem endName_polygonTrail (root : String) (index : Nat) :
    endName root (polygonTrail index) = "gml:Polygon" := rfl

theorem endName_trail (root : String) (extent : TemporalExtent) :
    endName root extent.trail = extent.elementName := rfl

theorem elementName_mem (extent : TemporalExtent) : extent.elementName ∈ extentNames := by
  rw [TemporalExtent.elementName]
  split <;> simp [extentNames]

/-- The polygons, instants and periods of a document are the elements with ids. -/
theorem name_mem_iff_isSome (h : Composed source tracker (allWrites given))
    (hgiven : contributions source = .ok given) :
    ∀ node ∈ (documentOf given).nodes,
      node.name ∈ identifiedNames ↔ (node.attributes.get? idName).isSome = true := by
  have helements : ∀ template ∈ documentTemplates, ∀ before ∈ template.inits,
      ∀ name ∈ identifiedNames, before.getLast?.map Path.TemplateSegment.name = some name →
        before ∈ idElements := by decide +kernel
  have hmem := h.arranged.mem
  refine Document.forall_mem_nodes_place_of_seenFrom fun trail index hreached => ?_
  rw [Document.name_place, Document.get?_attributes_place_leaf
    (Document.isPlace_of_mem_seenFrom h.placed.isPlace), Document.isSome_lastValue?_iff]
  show endName Layout.rootName trail ∈ identifiedNames ↔ _
  simp only [Document.mem_seenFrom]
  constructor
  · intro hname
    rcases hreached with rfl | ⟨p, hp, hthrough⟩
    · exact absurd hname (by decide)
    · -- What is written here is about an element with an id, and so the id is written.
      obtain ⟨write, hwrite, before, hbefore, heq, hlast⟩ :=
        exists_prefix_of_reached hmem hp hthrough
      have helement := helements _ (hmem write hwrite) before
        ((List.mem_inits _ _).mpr hbefore) _ hname hlast
      obtain ⟨value, hid⟩ := complete_allWrites hgiven write hwrite before helement hbefore
      refine ⟨value, List.mem_map.mpr ⟨_, hid, Prod.ext ?_ rfl⟩⟩
      have hsegments : (Layout.attr before idName).segments write.index =
          elements ((Layout.rootName, 1) :: trail) ++ [.attr idName] := by
        rw [heq, Layout.attr, Template.segments, List.map_append]
        rfl
      exact congrArg List.tail hsegments
  · rintro ⟨value, hplaced⟩
    have hbearer : (trail, value) ∈ identified (allWrites given) := by
      refine List.mem_filterMap.mpr ⟨_, hplaced, ?_⟩
      simp
    obtain ⟨extents, number, -, htrails⟩ := trails_identified_allWrites hgiven
    have htrail : trail ∈ (identified (allWrites given)).map Prod.fst :=
      List.mem_map_of_mem (f := Prod.fst) hbearer
    rw [htrails, List.mem_append] at htrail
    rcases htrail with hpolygon | htime
    · obtain ⟨box, -, rfl⟩ := Option.map_eq_some_iff.mp (Option.mem_toList.mp hpolygon)
      rw [endName_polygonTrail]
      exact List.mem_cons_self
    · obtain ⟨extent, -, rfl⟩ := List.mem_map.mp htime
      rw [endName_trail]
      exact List.mem_cons_of_mem _ (elementName_mem extent)

/-- The elements of a document that have some names. -/
def countNamed (names : List String) (document : Node) : Nat :=
  document.nodes.countP fun node => node.name ∈ names

/-- The elements of some names among those with ids can be counted by the ids. -/
theorem countNamed_eq_countP {document : Node} {names : List String}
    (hids : ∀ node ∈ document.nodes,
      node.name ∈ identifiedNames ↔ (node.attributes.get? idName).isSome = true)
    (hsub : names ⊆ identifiedNames) :
    countNamed names document =
      ((document.attributeValues idName).map Prod.fst).countP fun name => name ∈ names := by
  rw [Node.map_fst_attributeValues, List.countP_map, List.countP_filter, countNamed]
  refine List.countP_congr fun node hnode => ?_
  simp only [Function.comp_apply, Bool.and_eq_true, decide_eq_true_iff]
  exact ⟨fun hname => ⟨hname, (hids node hnode).mp (hsub hname)⟩, And.left⟩

/-- The ids of a document are the first ones of the supply, as many as are taken. -/
structure IdsOf (source : Source) (tracker : Assignments) (taken : Nat) (document : Node) :
    Prop where
  /-- In document order, the k-th id is the k-th of the supply. -/
  inOrder : (document.attributeValues idName).map Prod.snd =
    (List.range' 1 taken).map source.gmlId
  /-- Polygons, instants and periods have ids, and other elements do not. -/
  owners : ∀ node ∈ document.nodes,
    node.name ∈ identifiedNames ↔ (node.attributes.get? idName).isSome = true
  /-- One id is taken for each temporal extent of the document and one for its polygon. -/
  counted : taken = countNamed extentNames document + countNamed ["gml:Polygon"] document
  /-- There is a polygon if there is a location that can be read. -/
  polygon : countNamed ["gml:Polygon"] document = if source.location?.isSome then 1 else 0
  /-- There are the temporal extents of the record. -/
  extents : ∃ extents, source.temporalExtents = .ok extents ∧
    countNamed extentNames document = extents.length
  /-- No other ids are asked for. -/
  unread : ∀ gmlId, (∀ k, 1 ≤ k → k ≤ taken → gmlId k = source.gmlId k) →
    assignments (source.suppliedBy gmlId) = .ok tracker
  /-- If the supply never repeats itself, then no two elements have the same id. -/
  distinct : (∀ j k, 1 ≤ j → 1 ≤ k → source.gmlId j = source.gmlId k → j = k) →
    ((document.attributeValues idName).map Prod.snd).Nodup

/-- The ids are read in the order in which they are written. -/
theorem attributeValues_documentOf (h : Composed source tracker (allWrites given))
    (hgiven : contributions source = .ok given) :
    (documentOf given).attributeValues idName =
      (identified (allWrites given)).map fun bearer =>
        (endName Layout.rootName bearer.1, bearer.2) :=
  Document.attributeValues_place h.placed.isPlace (Document.nodup_of_pairwise h.placed.precedes)
    (ascending_of_mem_nodes h hgiven) (pairwise_identified_allWrites hgiven)

/-- The elements with ids are the polygon, if there is one, and the temporal extents. -/
theorem owners_documentOf (h : Composed source tracker (allWrites given))
    (hgiven : contributions source = .ok given) :
    ∃ extents, source.temporalExtents = .ok extents ∧
      ((documentOf given).attributeValues idName).map Prod.fst =
        (source.location?.map fun _ => "gml:Polygon").toList
          ++ extents.map TemporalExtent.elementName := by
  obtain ⟨extents, index, hextents, htrails⟩ := trails_identified_allWrites hgiven
  refine ⟨extents, hextents, ?_⟩
  calc ((documentOf given).attributeValues idName).map Prod.fst
    _ = ((identified (allWrites given)).map Prod.fst).map (endName Layout.rootName) := by
        rw [attributeValues_documentOf h hgiven, List.map_map, List.map_map]
        rfl
    _ = (source.location?.map fun _ => "gml:Polygon").toList
          ++ extents.map TemporalExtent.elementName := by
        rw [htrails, List.map_append, List.map_map]
        refine congrArg₂ _ ?_ rfl
        cases source.location? <;> rfl

/-- Among the elements with ids, the extents are told from the polygon by their names. -/
theorem countP_owners (polygon : Option BoundingBox) (extents : List TemporalExtent) :
    ((polygon.map fun _ => "gml:Polygon").toList ++ extents.map TemporalExtent.elementName).countP
        (fun name => name ∈ ["gml:Polygon"]) = (if polygon.isSome then 1 else 0) ∧
      ((polygon.map fun _ => "gml:Polygon").toList
        ++ extents.map TemporalExtent.elementName).countP
        (fun name => name ∈ extentNames) = extents.length := by
  have hother : ∀ name ∈ extentNames, name ∉ ["gml:Polygon"] := by decide
  have hnone : (extents.map TemporalExtent.elementName).countP
      (fun name => name ∈ ["gml:Polygon"]) = 0 := by
    rw [List.countP_eq_zero, List.forall_mem_map]
    exact fun extent _ => decide_eq_true_iff.not.mpr (hother _ (elementName_mem extent))
  have hall : (extents.map TemporalExtent.elementName).countP
      (fun name => name ∈ extentNames) = extents.length := by
    rw [← List.length_map (f := TemporalExtent.elementName), List.countP_eq_length,
      List.forall_mem_map]
    exact fun extent _ => decide_eq_true (elementName_mem extent)
  rw [List.countP_append, List.countP_append, hnone, hall]
  cases polygon with
  | none => exact ⟨rfl, Nat.zero_add _⟩
  | some box => exact ⟨rfl, Nat.zero_add _⟩

/-- The ids of a record's document are those that its conversion takes from the supply: the k-th id
in document order is the k-th one taken. -/
theorem ids_taken_in_order (hok : assignments source = .ok tracker) :
    ∃ document, Converter.assemble tracker = .ok document ∧
      IdsOf source tracker (run source).1.progress.ids document := by
  have hunread (gmlId : Nat → String) := @assignments_suppliedBy source tracker gmlId hok
  obtain ⟨given, hgiven, hprogress⟩ := progress_run hok
  obtain ⟨others, hothers, hcomposed⟩ := exists_composed hok
  obtain rfl := Except.ok.inj (hgiven.symm.trans hothers)
  have howners := name_mem_iff_isSome hcomposed hgiven
  obtain ⟨extents, hextents, hnames⟩ := owners_documentOf hcomposed hgiven
  obtain ⟨hpolygon, htimes⟩ := countP_owners source.location? extents
  rw [← hnames] at hpolygon htimes
  rw [← countNamed_eq_countP howners (by simp [identifiedNames])] at hpolygon htimes
  -- What is read is what is written, and what is written is what is taken.
  have htakes := takesNext_allWrites sections_takeInTurn hgiven
  have htaken : (run source).1.progress.ids = (identified (allWrites given)).length := by
    rw [hprogress, htakes.reached]
    exact Nat.zero_add _
  have hids : ((documentOf given).attributeValues idName).map Prod.snd =
      (List.range' 1 (run source).1.progress.ids).map source.gmlId := by
    rw [attributeValues_documentOf hcomposed hgiven, List.map_map, htaken]
    exact htakes.values
  refine ⟨documentOf given, hcomposed.placed.assembled,
    { inOrder := hids
      owners := howners
      counted := ?counted
      polygon := hpolygon
      extents := ⟨extents, hextents, htimes⟩
      unread := hunread
      distinct := ?distinct }⟩
  case counted =>
    have hlength : ((documentOf given).attributeValues idName).length =
        source.location?.toList.length + extents.length := by
      rw [← List.length_map (f := Prod.fst), hnames, List.length_append, List.length_map]
      cases source.location? <;> rfl
    rw [attributeValues_documentOf hcomposed hgiven, List.length_map, ← htaken] at hlength
    rw [hlength, htimes, hpolygon, Nat.add_comm]
    cases source.location? <;> rfl
  case distinct =>
    intro hinjective
    rw [hids]
    refine List.Nodup.map_on (fun j hj k hk heq => ?_) List.nodup_range'
    exact hinjective j k (List.mem_range'_1.mp hj).1 (List.mem_range'_1.mp hk).1 heq

/-- A record with a place, an instant and a period, and a supply that does not repeat itself. -/
def datedSource : Source :=
  let first : Value := .moment ⟨⟨2020, 1, 1, rfl⟩, .midnight, none⟩
  let second : Value := .moment ⟨⟨2020, 2, 1, rfl⟩, .midnight, none⟩
  (sourceOf [(Attribute.location, [.text "POINT (1 50)"]), (Attribute.start, [first, first]),
    (Attribute.end, [first, second])]).suppliedBy fun k => String.ofList (List.replicate k 'x')

theorem dated_ids_taken_in_order :
    ∃ tracker document, assignments datedSource = .ok tracker ∧
      Converter.assemble tracker = .ok document ∧ IdsOf datedSource tracker 3 document ∧
      ((document.attributeValues idName).map Prod.snd).Nodup := by
  obtain ⟨tracker, hok⟩ : Succeeds (assignments datedSource) :=
    succeeds_of_faultOf? (by decide +kernel)
  obtain ⟨document, hassemble, hids⟩ := ids_taken_in_order hok
  have htaken : (run datedSource).1.progress.ids = 3 := by decide +kernel
  rw [htaken] at hids
  refine ⟨tracker, document, hok, hassemble, hids, hids.distinct fun j k _ _ heq => ?_⟩
  have hlength := congrArg (fun text : String => text.toList.length) heq
  simpa [datedSource, Source.suppliedBy] using hlength

end GeoMetadata.Profile
