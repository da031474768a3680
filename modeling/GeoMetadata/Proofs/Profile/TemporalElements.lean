import GeoMetadata.Proofs.Profile.Elements
import Mathlib.Data.List.Sort

/-!
# Which starts and ends are paired

The temporal elements of a document are those of the temporal extents, in order
(`temporalElements_documentOf`): the extents are written in rounds, and what a round writes makes
the element of its extent (`place_extentPlacements`).

An extent has the texts of a start and an end.  Where these stand among the values of their
attributes is not seen from the texts, since values that are no dates are passed over before the
dates are counted.  So a start may be paired with an end from another position:

```text
starts      2021-01-01    null
ends        null          2021-02-01
extents     2021-01-01 to 2021-02-01
```

`momentPositions` keeps the positions.  Elements that pair starts and ends of the same positions use
up all positions of both attributes, since there are as many elements as dates; so the pairs are of
the same positions only if the dates of both attributes are (`pairsByPosition_iff`). Conversely,
dates at the same positions are paired position by position (`forall₂_pairsAt`).  If there are more
dates of one attribute than of the other, there are no extents at all.
-/

namespace GeoMetadata.Profile

open Document (Trail Placement seenFrom place elements roundAt)

variable {source : Source} {tracker : Assignments} {given : List Contribution}

/-! ## The elements -/

/-- The temporal element with this index that holds the times. -/
def temporalElement (index : Int) (name gmlId : String) (times : List Node) : Node :=
  holder "temporalElement" index (holder "EX_TemporalExtent" 1
    (holder "extent" 1 ⟨name, 1, none, .ofList [(idName, gmlId)], times⟩))

/-- The temporal element of an instant. -/
def instantElement (index : Int) (gmlId text : String) : Node :=
  temporalElement index "gml:TimeInstant" gmlId [textElement "gml:timePosition" text]

/-- The temporal element of a period. -/
def periodElement (index : Int) (gmlId start «end» : String) : Node :=
  temporalElement index "gml:TimePeriod" gmlId
    [textElement "gml:beginPosition" start, textElement "gml:endPosition" «end»]

/-- The element of a temporal extent: an instant if it begins and ends at the same time, and else a
period. -/
def extentElement (gmlId : String) (extent : TemporalExtent) : Node :=
  if extent.isInstant then instantElement extent.index gmlId extent.start
  else periodElement extent.index gmlId extent.start extent.end

/-- What is written about a temporal extent, as seen from its element. -/
def extentPlacements (gmlId : String) (extent : TemporalExtent) : List Placement :=
  let inner (rest : List Segment) : List Segment :=
    elements [("EX_TemporalExtent", 1), ("extent", 1), (extent.elementName, 1)] ++ rest
  (inner [.attr idName], gmlId) ::
    if extent.isInstant then [(inner [.element "gml:timePosition" 1], extent.start)]
    else [(inner [.element "gml:beginPosition" 1], extent.start),
      (inner [.element "gml:endPosition" 1], extent.end)]

theorem place_extentPlacements (gmlId : String) (extent : TemporalExtent) :
    place (extentPlacements gmlId extent) (.leaf "temporalElement" extent.index) =
      extentElement gmlId extent := by
  unfold extentPlacements extentElement TemporalExtent.elementName
  split <;> rfl

theorem placement_extentWrites (gmlId : String) (extent : TemporalExtent) :
    (extentWrites gmlId extent).map Write.placement = (extentPlacements gmlId extent).map fun p =>
      (elements (extentTrail ++ [(("temporalElement", extent.index) : String × Nat)]) ++ p.1,
        p.2) := by
  unfold extentWrites extentPlacements TemporalExtent.elementName
  split <;> rfl

/-- The extents are numbered as they stand. -/
theorem zipIdx_eq_map_index {extents : List TemporalExtent}
    (hrange : extents.map TemporalExtent.index = List.range' 1 extents.length) :
    extents.zipIdx 1 = extents.map fun extent => (extent, extent.index) := by
  rw [List.zipIdx_eq_zip_range', ← hrange]
  exact List.map_prod_left_eq_zip.symm

/-- What the temporal extents of a record have to do with what is seen in its document: from each
temporal element its own extent is seen. -/
theorem exists_seenFrom_temporalElement (hgiven : contributions source = .ok given) :
    ∃ extents taken, source.temporalExtents = .ok extents ∧
      extents.map TemporalExtent.index = List.range' 1 extents.length ∧
      ∀ n, seenFrom (extentTrail ++ [(("temporalElement", n) : String × Nat)])
          ((allWrites given).map Write.placement) =
        roundAt 1 (extents.map fun extent =>
          extentPlacements (source.gmlId (taken + extent.index)) extent) n := by
  obtain ⟨own, progress, hown, hseen⟩ := @exists_seenFrom_of_section source given extentTrail
    "temporalElement" 20 _ rfl hgiven (by decide +kernel)
  obtain ⟨starts, hstarts, hown⟩ := bind_eq_ok_iff.mp hown
  obtain ⟨ends, hends, hown⟩ := bind_eq_ok_iff.mp hown
  obtain rfl := Except.ok.inj hown
  have hrange := map_index_eq_range starts ends
  refine ⟨pairExtents starts ends, progress.ids,
    bind_eq_ok_iff.mpr ⟨starts, hstarts, bind_eq_ok_iff.mpr ⟨ends, hends, rfl⟩⟩, hrange, fun n => ?_⟩
  rw [hseen, ← Document.seenFrom_rounds "temporalElement" extentTrail, List.zipIdx_map,
    zipIdx_eq_map_index hrange, List.map_map, List.flatMap_map, List.map_flatMap]
  exact congrArg _ (List.flatMap_congr fun extent _ => placement_extentWrites _ extent)

/-- The temporal elements of a document. -/
def temporalElements (document : Node) : List Node :=
  document.childrenAt (Trail.address extentTrail) "temporalElement"

/-- The temporal elements are those of the temporal extents of the record, in order. -/
theorem temporalElements_documentOf (h : Composed source tracker (allWrites given))
    (hgiven : contributions source = .ok given) :
    ∃ extents taken, source.temporalExtents = .ok extents ∧
      temporalElements (documentOf given) = extents.map fun extent =>
        extentElement (source.gmlId (taken + extent.index)) extent := by
  obtain ⟨extents, taken, hextents, hrange, hseen⟩ := exists_seenFrom_temporalElement hgiven
  refine ⟨extents, taken, hextents, ?_⟩
  rw [temporalElements, childrenAt_documentOf_of_rounds h hgiven (by decide) ?rounds hseen,
    List.zipIdx_map, zipIdx_eq_map_index hrange, List.map_map, List.map_map]
  · exact List.map_congr_left fun extent _ => place_extentPlacements _ extent
  case rounds =>
    intro hnil
    obtain ⟨extent, -, hparts⟩ := List.mem_map.mp hnil
    exact List.cons_ne_nil _ _ hparts

/-! ## Positions

The positions of the dates increase, and the texts of the dates belong to them one by one
(`forall₂_datedAt`). -/

/-- The positions of the moments among some values. -/
def momentPositions : List Value → List Nat
  | [] => []
  | value :: rest =>
    let later := (momentPositions rest).map (· + 1)
    if value.moment?.isSome then 0 :: later else later

variable {values : List Value} {value : Value} {texts : List String}

theorem momentPositions_cons_of_some {t : Time.DateTime} (h : value.moment? = some t) :
    momentPositions (value :: values) = 0 :: (momentPositions values).map (· + 1) := by
  rw [momentPositions, h]
  rfl

theorem momentPositions_cons_of_none (h : value.moment? = none) :
    momentPositions (value :: values) = (momentPositions values).map (· + 1) := by
  rw [momentPositions, h]
  rfl

theorem moment?_eq_some_iff {t : Time.DateTime} : value.moment? = some t ↔ value = .moment t := by
  cases value <;> simp [Value.moment?]

theorem mem_momentPositions {n : Nat} :
    n ∈ momentPositions values ↔ ∃ t, values[n]? = some (.moment t) := by
  induction values generalizing n with
  | nil => simp [momentPositions]
  | cons value rest ih =>
      cases hmoment : value.moment? with
      | none =>
          rw [momentPositions_cons_of_none hmoment, List.mem_map]
          cases n with
          | zero => simp [← moment?_eq_some_iff, hmoment]
          | succ n => simp [ih]
      | some t =>
          rw [momentPositions_cons_of_some hmoment, List.mem_cons, List.mem_map]
          cases n with
          | zero => simp [moment?_eq_some_iff.mp hmoment]
          | succ n => simp [ih]

theorem pairwise_momentPositions (values : List Value) :
    (momentPositions values).Pairwise (· < ·) := by
  induction values with
  | nil => exact .nil
  | cons value rest ih =>
      have hlater : ((momentPositions rest).map (· + 1)).Pairwise (· < ·) :=
        List.pairwise_map.mpr (ih.imp fun hlt => Nat.succ_lt_succ hlt)
      cases hmoment : value.moment? with
      | none => rwa [momentPositions_cons_of_none hmoment]
      | some t =>
          rw [momentPositions_cons_of_some hmoment]
          exact .cons (List.forall_mem_map.mpr fun n _ => Nat.succ_pos n) hlater

/-- The text is that of the date at the position. -/
def DatedAt (values : List Value) (position : Nat) (text : String) : Prop :=
  ∃ t, values[position]? = some (.moment t) ∧ dateText t = .ok text

/-- The texts of the dates among some values are those of the dates at their positions, in order. -/
theorem forall₂_datedAt (htexts : dateTexts (values.filterMap Value.moment?) = .ok texts) :
    List.Forall₂ (DatedAt values) (momentPositions values) texts := by
  induction values generalizing texts with
  | nil =>
      obtain rfl := Except.ok.inj htexts
      exact .nil
  | cons value rest ih =>
      -- What stands at a position of the rest stands one further on in the whole.
      have hshift {others : List String}
          (h : List.Forall₂ (DatedAt rest) (momentPositions rest) others) :
          List.Forall₂ (DatedAt (value :: rest)) ((momentPositions rest).map (· + 1)) others :=
        List.forall₂_map_left_iff.mpr h
      cases hmoment : value.moment? with
      | none =>
          rw [List.filterMap_cons_none hmoment] at htexts
          rw [momentPositions_cons_of_none hmoment]
          exact hshift (ih htexts)
      | some t =>
          rw [List.filterMap_cons_some hmoment, dateTexts, mapM_eq_ok_iff] at htexts
          rw [momentPositions_cons_of_some hmoment]
          cases htexts with
          | @cons _ text _ others htext hothers =>
              refine .cons ⟨t, ?_, htext⟩ (hshift (ih (mapM_eq_ok_iff.mpr hothers)))
              rw [moment?_eq_some_iff.mp hmoment, List.getElem?_cons_zero]

/-- Positions that are all among the others, and are as many, are the others. -/
theorem eq_of_subset_of_length {positions others : List Nat}
    (hpositions : positions.Pairwise (· < ·)) (hothers : others.Pairwise (· < ·))
    (hsubset : positions ⊆ others) (hlength : others.length ≤ positions.length) :
    positions = others := by
  have hnodup : positions.Nodup := hpositions.imp Nat.ne_of_lt
  -- Both increase, so that the one is found in the other in order.
  exact (List.sublist_of_subperm_of_pairwise (List.subperm_of_subset hnodup hsubset) hpositions
    hothers).eq_of_length_le hlength

/-! ## Pairs -/

/-- All values of an attribute, nulls among them. -/
def allValues (record : Record) (name : String) : List Value :=
  (record.attributes.get? name).getD []

theorem moments_eq_filterMap_allValues (record : Record) (name : String) :
    record.moments name = (allValues record name).filterMap Value.moment? := by
  rw [Record.moments, Record.values, List.filterMap_filter]
  refine List.filterMap_congr fun value _ => ?_
  cases value <;> rfl

/-- The element goes from the start to the end at one position, and it is an instant if the two have
one text, and else a period. -/
def PairsAt (starts ends : List Value) (position : Nat) (element : Node) : Prop :=
  ∃ start «end» index gmlId, DatedAt starts position start ∧ DatedAt ends position «end» ∧
    if start = «end» then element = instantElement index gmlId start
    else element = periodElement index gmlId start «end»

/-- Each temporal element goes from a start to an end at the same position of the two attributes,
and the positions increase, so that none is used twice. -/
def PairsByPosition (record : Record) (document : Node) : Prop :=
  ∃ positions : List Nat, positions.Pairwise (· < ·) ∧
    List.Forall₂ (PairsAt (allValues record Attribute.start) (allValues record Attribute.end))
      positions (temporalElements document)

/-- Starts and ends at the same positions are paired by position. -/
theorem forall₂_pairsAt {starts ends : List Value} {positions : List Nat}
    {startTexts endTexts : List String} (hstarts : List.Forall₂ (DatedAt starts) positions startTexts)
    (hends : List.Forall₂ (DatedAt ends) positions endTexts) (gmlId : Nat → String) :
    List.Forall₂ (PairsAt starts ends) positions
      ((pairExtents startTexts endTexts).map fun extent =>
        extentElement (gmlId extent.index) extent) := by
  have hlength : startTexts.length = endTexts.length :=
    hstarts.length_eq.symm.trans hends.length_eq
  rw [pairExtents, if_pos hlength, List.map_map]
  -- The rest of the extents is not numbered from 1.
  generalize 1 = first
  induction hstarts generalizing endTexts first with
  | nil =>
      cases hends
      exact .nil
  | @cons position start positions startTexts hstart _ ih =>
      cases hends with
      | @cons _ «end» _ endTexts hend hends =>
          rw [List.zip_cons_cons, List.zipIdx_cons, List.map_cons]
          refine .cons ⟨start, «end», first, gmlId first, hstart, hend, ?_⟩
            (ih hends (Nat.succ.inj hlength) (first + 1))
          show if start = «end» then extentElement (gmlId first) ⟨first, start, «end»⟩ = _
            else extentElement (gmlId first) ⟨first, start, «end»⟩ = _
          by_cases hsame : start = «end»
          · rw [if_pos hsame]
            exact if_pos (decide_eq_true hsame)
          · rw [if_neg hsame]
            exact if_neg (decide_eq_true_iff.not.mpr hsame)

/-- Paired elements stand at positions that have a date in both attributes. -/
theorem subset_of_forall₂_pairsAt {starts ends : List Value} {positions : List Nat}
    {nodes : List Node} (h : List.Forall₂ (PairsAt starts ends) positions nodes) :
    positions ⊆ momentPositions starts ∧ positions ⊆ momentPositions ends := by
  induction h with
  | nil => exact ⟨List.nil_subset _, List.nil_subset _⟩
  | cons hpair _ ih =>
      obtain ⟨start, «end», index, gmlId, ⟨t, ht, -⟩, ⟨u, hu, -⟩, -⟩ := hpair
      exact ⟨List.cons_subset.mpr ⟨mem_momentPositions.mpr ⟨t, ht⟩, ih.1⟩,
        List.cons_subset.mpr ⟨mem_momentPositions.mpr ⟨u, hu⟩, ih.2⟩⟩

/-- Elements of paired extents pair starts and ends by position if there are none for want of equal
numbers, or the dates of both attributes stand at the same positions. -/
theorem pairsByPosition_iff {document : Node} {starts ends : List String} (gmlId : Nat → String)
    (hstarts : dateTexts (source.record.moments Attribute.start) = .ok starts)
    (hends : dateTexts (source.record.moments Attribute.end) = .ok ends)
    (helements : temporalElements document =
      (pairExtents starts ends).map fun extent => extentElement (gmlId extent.index) extent) :
    PairsByPosition source.record document ↔
      starts.length ≠ ends.length ∨
        momentPositions (allValues source.record Attribute.start) =
          momentPositions (allValues source.record Attribute.end) := by
  rw [moments_eq_filterMap_allValues] at hstarts hends
  have hstartsAt := forall₂_datedAt hstarts
  have hendsAt := forall₂_datedAt hends
  constructor
  · rintro ⟨positions, hpairwise, hpairs⟩
    refine or_iff_not_imp_left.mpr fun hlength => ?_
    rw [not_ne_iff] at hlength
    obtain ⟨hinStarts, hinEnds⟩ := subset_of_forall₂_pairsAt hpairs
    have hcount : positions.length = starts.length := by
      rw [hpairs.length_eq, helements, List.length_map, pairExtents, if_pos hlength]
      simp [hlength]
    -- The positions are among those of each attribute, and are as many: they are all of them.
    have hallStarts := eq_of_subset_of_length hpairwise (pairwise_momentPositions _) hinStarts
      (Nat.le_of_eq (hstartsAt.length_eq.trans hcount.symm))
    have hallEnds := eq_of_subset_of_length hpairwise (pairwise_momentPositions _) hinEnds
      (Nat.le_of_eq (hendsAt.length_eq.trans (hlength.symm.trans hcount.symm)))
    exact hallStarts.symm.trans hallEnds
  · rintro (hlength | hsame)
    · refine ⟨[], .nil, ?_⟩
      rw [helements, pairExtents, if_neg hlength]
      exact .nil
    · refine ⟨momentPositions (allValues source.record Attribute.start),
        pairwise_momentPositions _, ?_⟩
      rw [helements]
      exact forall₂_pairsAt hstartsAt (hsame ▸ hendsAt) gmlId

/-! ## The document -/

theorem exists_temporalElements (hok : assignments source = .ok tracker) :
    ∃ document starts ends taken, Converter.assemble tracker = .ok document ∧
      dateTexts (source.record.moments Attribute.start) = .ok starts ∧
      dateTexts (source.record.moments Attribute.end) = .ok ends ∧
      temporalElements document = (pairExtents starts ends).map fun extent =>
        extentElement (source.gmlId (taken + extent.index)) extent := by
  obtain ⟨given, hgiven, hcomposed⟩ := exists_composed hok
  obtain ⟨extents, taken, hextents, helements⟩ := temporalElements_documentOf hcomposed hgiven
  obtain ⟨starts, hstarts, hextents⟩ := bind_eq_ok_iff.mp hextents
  obtain ⟨ends, hends, hextents⟩ := bind_eq_ok_iff.mp hextents
  obtain rfl := Except.ok.inj hextents
  exact ⟨_, starts, ends, taken, hcomposed.placed.assembled, hstarts, hends, helements⟩

/-- The temporal elements of a document pair the first start with the first end, the second with the
second, and so on, if there are as many dates of one as of the other.  Such pairs are of starts and
ends at the same positions exactly if there are none, for want of equal numbers, or the dates of
both attributes stand at the same positions. -/
theorem temporal_elements_pair_by_position_iff (hok : assignments source = .ok tracker) :
    ∃ document starts ends taken, Converter.assemble tracker = .ok document ∧
      dateTexts (source.record.moments Attribute.start) = .ok starts ∧
      dateTexts (source.record.moments Attribute.end) = .ok ends ∧
      temporalElements document = (pairExtents starts ends).map (fun extent =>
        extentElement (source.gmlId (taken + extent.index)) extent) ∧
      (PairsByPosition source.record document ↔
        starts.length ≠ ends.length ∨
          momentPositions (allValues source.record Attribute.start) =
            momentPositions (allValues source.record Attribute.end)) := by
  obtain ⟨document, starts, ends, taken, hassemble, hstarts, hends, helements⟩ :=
    exists_temporalElements hok
  exact ⟨document, starts, ends, taken, hassemble, hstarts, hends, helements,
    pairsByPosition_iff (fun index => source.gmlId (taken + index)) hstarts hends helements⟩

theorem dated_temporal_elements_pair_by_position :
    ∃ tracker document, assignments datedSource = .ok tracker ∧
      Converter.assemble tracker = .ok document ∧ (temporalElements document).length = 2 ∧
      PairsByPosition datedSource.record document := by
  obtain ⟨tracker, hok⟩ : Succeeds (assignments datedSource) :=
    succeeds_of_faultOf? (by decide +kernel)
  obtain ⟨document, starts, ends, taken, hassemble, hstarts, hends, helements, hpairs⟩ :=
    temporal_elements_pair_by_position_iff hok
  refine ⟨tracker, document, hok, hassemble, ?_, hpairs.mpr (.inr (by decide +kernel))⟩
  have hstart : starts.length = 2 :=
    (mapM_eq_ok_iff.mp hstarts).length_eq.symm.trans (by decide +kernel)
  have hend : ends.length = 2 :=
    (mapM_eq_ok_iff.mp hends).length_eq.symm.trans (by decide +kernel)
  rw [helements, List.length_map, pairExtents, if_pos (hstart.trans hend.symm)]
  simp [hstart, hend]

/-- A start and an end, each of which stands at a position where the other attribute has a null. -/
def shiftedSource : Source :=
  sourceOf [(Attribute.start, [.moment ⟨⟨2021, 1, 1, rfl⟩, .midnight, none⟩, .null]),
    (Attribute.end, [.null, .moment ⟨⟨2021, 2, 1, rfl⟩, .midnight, none⟩])]

/-- The start at the first position is paired with the end at the second. -/
theorem shifted_dates_are_paired :
    ∃ tracker document, assignments shiftedSource = .ok tracker ∧
      Converter.assemble tracker = .ok document ∧
      temporalElements document =
        [periodElement 1 "" "2021-01-01T00:00:00.000Z" "2021-02-01T00:00:00.000Z"] ∧
      ¬PairsByPosition shiftedSource.record document := by
  have hstart : (dateTexts (shiftedSource.record.moments Attribute.start)).toOption =
      some ["2021-01-01T00:00:00.000Z"] := by decide +kernel
  have hend : (dateTexts (shiftedSource.record.moments Attribute.end)).toOption =
      some ["2021-02-01T00:00:00.000Z"] := by decide +kernel
  obtain ⟨tracker, hok⟩ : Succeeds (assignments shiftedSource) :=
    succeeds_of_faultOf? (by decide +kernel)
  obtain ⟨document, starts, ends, taken, hassemble, hstarts, hends, helements⟩ :=
    exists_temporalElements hok
  have hpairs := pairsByPosition_iff (fun index => shiftedSource.gmlId (taken + index)) hstarts hends
    helements
  rw [hstarts] at hstart
  rw [hends] at hend
  obtain rfl := Option.some.inj hstart
  obtain rfl := Option.some.inj hend
  refine ⟨tracker, document, hok, hassemble, ?_, hpairs.not.mpr ?_⟩
  · have hextents : pairExtents ["2021-01-01T00:00:00.000Z"] ["2021-02-01T00:00:00.000Z"] =
        [⟨1, "2021-01-01T00:00:00.000Z", "2021-02-01T00:00:00.000Z"⟩] := by rfl
    rw [helements, hextents, List.map_singleton, extentElement, if_neg (by decide +kernel)]
    rfl
  · rw [not_or, not_ne_iff]
    exact ⟨rfl, by decide +kernel⟩

end GeoMetadata.Profile
