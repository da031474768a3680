import GeoMetadata.Proofs.Geometry.Shape
import GeoMetadata.Proofs.Profile.Elements

/-!
# The geographic elements of a document

Two sections write geographic elements and share one number for them.  The section on the countries
begins with the first element, because no section before it counts any, and the section on the
location goes on after the last country (`exists_geographic_split`).  So the elements are made of
rounds: one for each country, and then those of the location (`locationRounds`):

```text
the location           its elements
missing or empty       a box without numbers
not well-known text    none
without vertices       a polygon without positions
otherwise              a polygon, and the box around its vertices
```

A location with curved parts is not among these, since it ends the conversion.  The cases are those
of `ShowsLocation`, which says what the elements are made of; the reader of well-known text comes in
only by what it answers.

A box is written by one round with all of its bounds, with numbers or without
(`ShowsLocation.hasWholeBounds`).
-/

namespace GeoMetadata.Profile

open Document (Trail Placement elements seenFrom place roundAt)
open Number (Binary64)

variable {source : Source} {tracker : Assignments} {given : List Contribution}
  {progress : Progress} {part : Contribution}

/-! ## The elements -/

/-- A geographic element that names a country. -/
def countryElement (index : Int) (code : String) : Node :=
  holder "geographicElement" index (holder "EX_GeographicDescription" 1
    (holder "geographicIdentifier" 1 (identifierElement code countryCodeSpace)))

/-- A geographic element with a polygon. -/
def polygonElement (index : Int) (gmlId srsName positions : String) : Node :=
  holder "geographicElement" index (holder "EX_BoundingPolygon" 1 (holder "polygon" 1
    ⟨"gml:Polygon", 1, none, .ofList [(idName, gmlId), ("srsName", srsName)],
      [holder "gml:exterior" 1 (holder "gml:LinearRing" 1
        (textElement "gml:posList" positions))]⟩))

/-- The names of the bounds of a box. -/
def boundNames : List String :=
  ["westBoundLongitude", "eastBoundLongitude", "southBoundLatitude", "northBoundLatitude"]

/-- A geographic element with a box that has some bounds. -/
def boxElement (index : Int) (bounds : List Node) : Node :=
  holder "geographicElement" index ⟨"EX_GeographicBoundingBox", 1, none, .empty, bounds⟩

/-- A bound without a number. -/
def emptyBound (name : String) : Node := textElement name ""

/-- A bound with its number. -/
def numberBound (name : String) (x : Binary64) : Node :=
  holder name 1 (textElement "gco:Decimal" (boundText x))

/-! ## The rounds -/

/-- What is written about a country, as seen from its element. -/
def countryPlacements (code : String) : List Placement :=
  identifierPlacements ["EX_GeographicDescription", "geographicIdentifier"] code countryCodeSpace

/-- What is written about a polygon, as seen from its element. -/
def polygonPlacements (gmlId srsName positions : String) : List Placement :=
  let polygon := downTo ["EX_BoundingPolygon", "polygon", "gml:Polygon"]
  [(polygon ++ [.attr idName], gmlId), (polygon ++ [.attr "srsName"], srsName),
    (polygon ++ downTo ["gml:exterior", "gml:LinearRing", "gml:posList"], positions)]

/-- What is written about a box without numbers, as seen from its element. -/
def emptyBoxPlacements : List Placement :=
  boundNames.map fun name => (downTo ["EX_GeographicBoundingBox", name], "")

/-- What is written about a box, as seen from its element. -/
def boxPlacements (bounds : List Binary64) : List Placement :=
  (boundNames.zip bounds).map fun bound =>
    (downTo ["EX_GeographicBoundingBox", bound.1, "gco:Decimal"], boundText bound.2)

/-- What is written about a location that can be read, one round for each element. -/
def boundingBoxRounds (gmlId srsName : String) (box : BoundingBox) : List (List Placement) :=
  polygonPlacements gmlId srsName box.positionList :: box.bounds?.toList.map boxPlacements

/-- What is written about the location of a record, one round for each element. -/
def locationRounds (source : Source) (gmlId : String) : List (List Placement) :=
  match (source.record.string? Attribute.location).filter (· ≠ "") with
  | none => [emptyBoxPlacements]
  | some location =>
    match WellKnownText.boundingBox location with
    | .ok box => boundingBoxRounds gmlId source.settings.gmlSrsName box
    | .error _ => []

/-! ## What the sections write

The writes of a section are put side by side with its rounds, numbered from where the section
begins. -/

/-- The places below a geographic element, as seen from the root. -/
def inGeographicElement (index : Nat) (placements : List Placement) : List Placement :=
  placements.map fun p =>
    (elements (extentTrail ++ [(("geographicElement", index) : String × Nat)]) ++ p.1, p.2)

theorem seenFrom_countryContribution (n : Nat) :
    seenFrom (extentTrail ++ [(("geographicElement", n) : String × Nat)])
        ((countryContribution source progress).writes.map Write.placement) =
      roundAt (progress.geographic + 1)
        ((source.record.strings Attribute.countryCode).map countryPlacements) n := by
  have hcodes := @seenFrom_identifierPasses extentTrail "geographicElement" String Layout.country
    ["EX_GeographicDescription", "geographicIdentifier"] (fun _ _ => rfl) (fun _ _ => rfl)
    (source.record.strings Attribute.countryCode) id (fun _ => countryCodeSpace)
    (progress.geographic + 1) n
  rw [List.map_id] at hcodes
  exact hcodes

theorem placement_boundingBoxContribution (box : BoundingBox) :
    (boundingBoxContribution source progress box).writes.map Write.placement =
      ((boundingBoxRounds (source.gmlId (progress.ids + 1)) source.settings.gmlSrsName box).zipIdx
        (progress.geographic + 1)).flatMap fun entry => inGeographicElement entry.2 entry.1 := by
  rw [boundingBoxContribution, boundingBoxRounds]
  cases hbounds : box.bounds? with
  | none => rfl
  | some bounds =>
      obtain ⟨west, east, south, north, rfl⟩ := exists_bounds?_eq hbounds
      rfl

theorem placement_locationContribution (hok : locationContribution source progress = .ok part) :
    part.writes.map Write.placement =
      ((locationRounds source (source.gmlId (progress.ids + 1))).zipIdx
        (progress.geographic + 1)).flatMap fun entry => inGeographicElement entry.2 entry.1 := by
  rw [locationContribution] at hok
  rw [locationRounds]
  cases hlocation : (source.record.string? Attribute.location).filter (· ≠ "") with
  | none =>
      rw [hlocation] at hok
      obtain rfl := Except.ok.inj hok
      rfl
  | some location =>
      rw [hlocation] at hok
      cases hbox : WellKnownText.boundingBox location with
      | ok box =>
          simp only [hbox] at hok ⊢
          obtain rfl := Except.ok.inj hok
          exact placement_boundingBoxContribution box
      | error fault =>
          simp only [hbox] at hok ⊢
          cases fault with
          | malformed =>
              obtain rfl := Except.ok.inj hok
              rfl
          | curved => cases hok

theorem seenFrom_locationContribution (hok : locationContribution source progress = .ok part)
    (n : Nat) :
    seenFrom (extentTrail ++ [(("geographicElement", n) : String × Nat)])
        (part.writes.map Write.placement) =
      roundAt (progress.geographic + 1)
        (locationRounds source (source.gmlId (progress.ids + 1))) n := by
  rw [placement_locationContribution hok]
  exact Document.seenFrom_rounds "geographicElement" extentTrail _ _ n

/-- The section on the countries counts from the first geographic element on, and that on the
location from the one after the countries on.  No other section writes any. -/
theorem exists_geographic_split (hok : contributions source = .ok given) :
    ∃ before location after,
      locationContribution source (countryContribution source ⟨0, 0⟩).progress = .ok location ∧
      allWrites given = before
        ++ (((countryContribution source ⟨0, 0⟩).writes ++ location.writes) ++ after) ∧
      (∀ write ∈ before, write.template ∈ (sectionTemplates.take 18).flatten) ∧
      ∀ write ∈ after, write.template ∈ (sectionTemplates.drop 20).flatten := by
  have hsections : sections = sections.take 18 ++ (⟨"geographic_identifier",
      fun source progress => .ok (countryContribution source progress)⟩
        :: ⟨"bounding_polygon", locationContribution⟩ :: sections.drop 20) := rfl
  -- Nothing before the countries numbers anything through.
  have hkeeps : ∀ part ∈ sections.take 18, part.KeepsProgress := by
    simp [sections, keepsProgress_plain, keepsProgress_checked]
  rw [contributions, hsections] at hok
  obtain ⟨first, rest, hfirst, hrest, rfl⟩ := contributionsFrom_append_of_keepsProgress hkeeps hok
  obtain ⟨country, hcountry, hrest⟩ := bind_eq_ok_iff.mp hrest
  obtain rfl := Except.ok.inj hcountry
  obtain ⟨others, hothers, hrest⟩ := bind_eq_ok_iff.mp hrest
  obtain rfl := Except.ok.inj hrest
  obtain ⟨location, hlocation, hothers⟩ := bind_eq_ok_iff.mp hothers
  obtain ⟨last, hlast, hothers⟩ := bind_eq_ok_iff.mp hothers
  obtain rfl := Except.ok.inj hothers
  have hbefore := (arranged_allWrites (List.forall₂_take 18 sections_arranges_sectionTemplates)
    (precedes_of_sections.sublist (List.take_sublist _ _)) hfirst).mem
  have hafter := (arranged_allWrites (List.forall₂_drop 20 sections_arranges_sectionTemplates)
    (precedes_of_sections.sublist (List.drop_sublist _ _)) hlast).mem
  refine ⟨allWrites first, location, allWrites last, hlocation, ?_, hbefore, hafter⟩
  rw [allWrites_append, allWrites_cons, allWrites_cons, List.append_assoc]
  rfl

theorem seenFrom_geographicElement (hgiven : contributions source = .ok given) (n : Nat) :
    seenFrom (extentTrail ++ [(("geographicElement", n) : String × Nat)])
        ((allWrites given).map Write.placement) =
      roundAt 1 ((source.record.strings Attribute.countryCode).map countryPlacements
        ++ locationRounds source (source.gmlId 1)) n := by
  obtain ⟨before, location, after, hlocation, hall, hbefore, hafter⟩ :=
    exists_geographic_split hgiven
  have hlast : (countryContribution source ⟨0, 0⟩).progress.geographic + 1 =
      1 + ((source.record.strings Attribute.countryCode).map countryPlacements).length := by
    rw [List.length_map, Nat.add_comm 1]
    show 0 + _ + 1 = _
    rw [Nat.zero_add]
  rw [hall, seenFrom_between hbefore hafter (by decide +kernel), List.map_append,
    Document.seenFrom_append, seenFrom_countryContribution,
    seenFrom_locationContribution hlocation, hlast, Document.roundAt_append]
  rfl

/-! ## The document -/

/-- The geographic elements of a document. -/
def geographicElementsOf (document : Node) : List Node :=
  document.childrenAt (Trail.address extentTrail) "geographicElement"

/-- The elements that some rounds make, from an index on. -/
def elementsOfRounds (rounds : List (List Placement)) (first : Nat) : List Node :=
  (rounds.zipIdx first).map fun entry => place entry.1 (.leaf "geographicElement" entry.2)

theorem nil_not_mem_locationRounds (source : Source) (gmlId : String) :
    [] ∉ locationRounds source gmlId := by
  unfold locationRounds
  split
  · exact List.not_mem_cons_of_ne_of_not_mem (List.cons_ne_nil _ _).symm List.not_mem_nil
  · split
    · rename_i box hbox
      refine List.not_mem_cons_of_ne_of_not_mem (List.cons_ne_nil _ _).symm fun hnil => ?_
      obtain ⟨bounds, hbounds, hbox⟩ := List.mem_map.mp hnil
      obtain ⟨west, east, south, north, rfl⟩ := exists_bounds?_eq (Option.mem_toList.mp hbounds)
      cases hbox
    · exact List.not_mem_nil

theorem geographicElementsOf_documentOf (h : Composed source tracker (allWrites given))
    (hgiven : contributions source = .ok given) :
    geographicElementsOf (documentOf given) =
      ((source.record.strings Attribute.countryCode).zipIdx 1).map
          (fun entry => countryElement entry.2 entry.1)
        ++ elementsOfRounds (locationRounds source (source.gmlId 1))
          ((source.record.strings Attribute.countryCode).length + 1) := by
  have hrounds : [] ∉ (source.record.strings Attribute.countryCode).map countryPlacements
      ++ locationRounds source (source.gmlId 1) := by
    rw [List.mem_append, not_or]
    refine ⟨fun hnil => ?_, nil_not_mem_locationRounds _ _⟩
    obtain ⟨code, -, hcode⟩ := List.mem_map.mp hnil
    cases hcode
  rw [geographicElementsOf, childrenAt_documentOf_of_rounds h hgiven (by decide) hrounds
    (seenFrom_geographicElement hgiven), List.zipIdx_append, List.map_append, List.length_map,
    List.zipIdx_map, List.map_map, Nat.add_comm 1]
  rfl

/-- The nodes are what a document has for the location of a record, the first of them with some
index: a box without numbers if there is no location, nothing if the location cannot be read, and
otherwise a polygon with the vertices and, if there are any, the box around them. -/
structure ShowsLocation (source : Source) (first : Nat) (nodes : List Node) : Prop where
  missing : source.record.string? Attribute.location = none ∨
    source.record.string? Attribute.location = some "" →
      nodes = [boxElement first (boundNames.map emptyBound)]
  unreadable : ∀ location fault, source.record.string? Attribute.location = some location →
    location ≠ "" → WellKnownText.read location = .error fault → nodes = []
  withoutVertices : ∀ location shape, source.record.string? Attribute.location = some location →
    location ≠ "" → WellKnownText.read location = .ok shape → shape.vertices = [] →
      nodes = [polygonElement first (source.gmlId 1) source.settings.gmlSrsName ""]
  /-- The position list has two numbers for each vertex, those of the first vertex first. -/
  withVertices : ∀ location shape, source.record.string? Attribute.location = some location →
    location ≠ "" → WellKnownText.read location = .ok shape → shape.vertices ≠ [] →
      ∃ positions west east south north,
        nodes = [polygonElement first (source.gmlId 1) source.settings.gmlSrsName positions,
          boxElement (first + 1) (boundNames.zipWith numberBound [west, east, south, north])] ∧
        Text.splitAt ' ' positions.toList = shape.vertices.flatMap Position.numbers ∧
        (Text.splitAt ' ' positions.toList).length = 2 * shape.vertices.length ∧
        (BoundingBox.ofVertices shape.vertices).bounds? = some [west, east, south, north]

/-- If the node is a box, it has all four bounds: all of them without numbers, or all with one. -/
def HasWholeBounds (box : Node) : Prop :=
  box.name = "EX_GeographicBoundingBox" →
    box.children = boundNames.map emptyBound ∨
      ∃ numbers : List Binary64, numbers.length = 4 ∧
        box.children = boundNames.zipWith numberBound numbers

section Location

variable {location : String} {first : Nat} {nodes : List Node}

theorem locationRounds_of_missing (hmissing : source.record.string? Attribute.location = none ∨
    source.record.string? Attribute.location = some "") (gmlId : String) :
    locationRounds source gmlId = [emptyBoxPlacements] := by
  rw [locationRounds]
  rcases hmissing with hnone | hempty
  · rw [hnone]
    rfl
  · rw [hempty]
    rfl

theorem locationRounds_of_error {fault : WellKnownText.Fault}
    (hlocation : source.record.string? Attribute.location = some location) (hsome : location ≠ "")
    (hread : WellKnownText.read location = .error fault) (gmlId : String) :
    locationRounds source gmlId = [] := by
  rw [locationRounds, filter_location_eq_some hlocation hsome]
  simp only [WellKnownText.boundingBox, hread]
  rfl

theorem locationRounds_of_ok {shape : Shape}
    (hlocation : source.record.string? Attribute.location = some location) (hsome : location ≠ "")
    (hread : WellKnownText.read location = .ok shape) (gmlId : String) :
    locationRounds source gmlId =
      boundingBoxRounds gmlId source.settings.gmlSrsName (.ofVertices shape.vertices) := by
  rw [locationRounds, filter_location_eq_some hlocation hsome]
  simp only [WellKnownText.boundingBox, hread]
  rfl

theorem showsLocation_elementsOfRounds (source : Source) (first : Nat) :
    ShowsLocation source first (elementsOfRounds (locationRounds source (source.gmlId 1)) first) where
  missing hmissing := by
    rw [locationRounds_of_missing hmissing]
    rfl
  unreadable location fault hlocation hsome hread := by
    rw [locationRounds_of_error hlocation hsome hread]
    rfl
  withoutVertices location shape hlocation hsome hread hnone := by
    rw [locationRounds_of_ok hlocation hsome hread, hnone]
    rfl
  withVertices location shape hlocation hsome hread hvertices := by
    obtain ⟨west, east, south, north, hbounds⟩ := BoundingBox.exists_bounds?_ofVertices hvertices
    have hnumbers := @BoundingBox.splitAt_positionList (.ofVertices shape.vertices) hvertices
    refine ⟨_, west, east, south, north, ?_, hnumbers, ?_, hbounds⟩
    · rw [locationRounds_of_ok hlocation hsome hread, boundingBoxRounds, hbounds]
      rfl
    · rw [hnumbers]
      exact BoundingBox.length_flatMap_numbers shape.vertices

theorem hasWholeBounds_holder {name : String} {index : Int} {child : Node}
    (hname : name ≠ "EX_GeographicBoundingBox") : HasWholeBounds (holder name index child) :=
  fun h => absurd h hname

theorem ShowsLocation.hasWholeBounds (h : ShowsLocation source first nodes) :
    ∀ element ∈ nodes, ∀ box ∈ element.children, HasWholeBounds box := by
  have hpolygon (positions : String) : ∀ box ∈ (polygonElement first (source.gmlId 1)
      source.settings.gmlSrsName positions).children, HasWholeBounds box := by
    intro box hbox
    obtain rfl := List.mem_singleton.mp hbox
    exact hasWholeBounds_holder (by decide)
  -- One case for each field of `ShowsLocation`.
  by_cases hmissing : source.record.string? Attribute.location = none ∨
      source.record.string? Attribute.location = some ""
  · intro element helement box hbox _
    rw [h.missing hmissing] at helement
    obtain rfl := List.mem_singleton.mp helement
    obtain rfl := List.mem_singleton.mp hbox
    exact .inl rfl
  · rw [not_or] at hmissing
    obtain ⟨location, hlocation⟩ := Option.ne_none_iff_exists'.mp hmissing.1
    have hsome : location ≠ "" := fun hempty => hmissing.2 (hempty ▸ hlocation)
    cases hread : WellKnownText.read location with
    | error fault =>
        rw [h.unreadable location fault hlocation hsome hread]
        simp
    | ok shape =>
        by_cases hvertices : shape.vertices = []
        · rw [h.withoutVertices location shape hlocation hsome hread hvertices,
            List.forall_mem_singleton]
          exact hpolygon _
        · obtain ⟨positions, west, east, south, north, hnodes, -⟩ :=
            h.withVertices location shape hlocation hsome hread hvertices
          rw [hnodes, List.forall_mem_cons, List.forall_mem_singleton]
          refine ⟨hpolygon _, fun box hbox _ => ?_⟩
          obtain rfl := List.mem_singleton.mp hbox
          exact .inr ⟨[west, east, south, north], rfl, rfl⟩

end Location

/-- The geographic elements of a document are those of the countries, in order, and after them those
of the location.  Boxes have all of their bounds, with numbers or without. -/
theorem geographic_elements_of_countries_and_location (hok : assignments source = .ok tracker) :
    ∃ document located, Converter.assemble tracker = .ok document ∧
      geographicElementsOf document =
        ((source.record.strings Attribute.countryCode).zipIdx 1).map
          (fun entry => countryElement entry.2 entry.1) ++ located ∧
      ShowsLocation source ((source.record.strings Attribute.countryCode).length + 1) located ∧
      ∀ element ∈ geographicElementsOf document, ∀ box ∈ element.children, HasWholeBounds box := by
  obtain ⟨given, hgiven, hcomposed⟩ := exists_composed hok
  have helements := geographicElementsOf_documentOf hcomposed hgiven
  have hlocated := showsLocation_elementsOfRounds source
    ((source.record.strings Attribute.countryCode).length + 1)
  refine ⟨documentOf given, _, hcomposed.placed.assembled, helements, hlocated, ?_⟩
  rw [helements, List.forall_mem_append]
  refine ⟨fun element helement box hbox => ?_, hlocated.hasWholeBounds⟩
  obtain ⟨entry, -, rfl⟩ := List.mem_map.mp helement
  obtain rfl := List.mem_singleton.mp hbox
  exact hasWholeBounds_holder (by decide)

theorem sample_geographic_elements :
    ∃ tracker document, assignments sampleSource = .ok tracker ∧
      Converter.assemble tracker = .ok document ∧ ∃ positions west east south north,
        geographicElementsOf document =
          [countryElement 1 "GBR",
            polygonElement 2 (sampleSource.gmlId 1) sampleSource.settings.gmlSrsName positions,
            boxElement 3 (boundNames.zipWith numberBound [west, east, south, north])] ∧
        (Text.splitAt ' ' positions.toList).length = 2 := by
  obtain ⟨tracker, hok⟩ := succeeds_assignments_sampleSource
  obtain ⟨document, located, hassemble, helements, hlocated, -⟩ :=
    geographic_elements_of_countries_and_location hok
  have hpoint : ((WellKnownText.read "POINT (1 50)").toOption.map fun shape =>
      shape.vertices.length) = some 1 := by decide +kernel
  cases hread : WellKnownText.read "POINT (1 50)" with
  | error fault =>
      rw [hread] at hpoint
      cases hpoint
  | ok shape =>
      rw [hread] at hpoint
      have hone : shape.vertices.length = 1 := Option.some.inj hpoint
      obtain ⟨positions, west, east, south, north, hnodes, -, hlength, -⟩ :=
        hlocated.withVertices "POINT (1 50)" shape rfl (by decide) hread
          (List.ne_nil_of_length_eq_add_one hone)
      refine ⟨tracker, document, hok, hassemble, positions, west, east, south, north, ?_, ?_⟩
      · rw [helements, hnodes]
        rfl
      · rw [hlength, hone]

end GeoMetadata.Profile
