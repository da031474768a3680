import GeoMetadata.Converter
import GeoMetadata.Proofs.Document.Contents
import GeoMetadata.Proofs.Profile.Arrangement
import GeoMetadata.Proofs.Profile.Convertible

/-!
# The document of a record

Every conversion that gives assignments gives a document: the paths of the arranged writes can be
read and start at the root, so that assembly places the values one after the other
(`exists_placed`).  The places are different and no text stands above another place, and so
the document holds the assignments and nothing else (`document_holds_assignments`).
-/

namespace GeoMetadata.Profile

open Document (Placement Precedes place)
open GeoMetadata.Path (Template)

/-! ## Assembly -/

/-- The place of a write below the root, and its value. -/
def Write.placement (write : Write) : Placement := (write.segments.tail, write.value)

theorem segments_eq_cons {write : Write} (hmem : write.template ∈ documentTemplates) :
    write.segments = .element Layout.rootName 1 :: write.placement.1 := by
  obtain ⟨-, hroot⟩ := isProper_of_mem hmem
  rw [Write.placement, Write.segments]
  cases htemplate : write.template with
  | nil => simp [htemplate] at hroot
  | cons first rest =>
      rw [htemplate, List.head?_cons, Option.some.injEq] at hroot
      rw [hroot, Template.segments_cons, List.tail_cons, Path.TemplateSegment.segment]

theorem isPlace_segments {template : Template} (hshaped : template.isShaped = true) (index : Nat) :
    Segment.isPlace (template.segments index) = true := by
  induction template using GeoMetadata.Path.Template.isShaped.induct with
  | case1 => rfl
  | case2 last => cases last <;> rfl
  | case3 name next rest => simp [Template.isShaped] at hshaped
  | case4 first rest hrest hattr ih =>
      rw [Template.isShaped.eq_4 _ _ hrest hattr] at hshaped
      rw [Template.segments_cons]
      cases first with
      | single name => exact ih hshaped
      | «repeated» name => exact ih hshaped
      | attr name =>
          cases rest with
          | nil => exact absurd rfl hrest
          | cons next others => exact absurd rfl (hattr name next others rfl)

/-- Assembly goes through writes whose paths can be read and start at the root. -/
theorem foldlM_addAssignment {writes : List Write} {node : Node}
    (hread : ∀ write ∈ writes, Path.read (write.template.at write.index) =
      .ok (.element Layout.rootName 1 :: write.placement.1)) :
    (writes.map fun write => (write.template.at write.index, write.value)).foldlM
        (Document.addAssignment Layout.rootName) node =
      .ok (place (writes.map Write.placement) node) := by
  induction writes generalizing node with
  | nil => rfl
  | cons write rest ih =>
      obtain ⟨hwrite, hrest⟩ := List.forall_mem_cons.mp hread
      have hstep : Document.addAssignment Layout.rootName node
          (write.template.at write.index, write.value) =
            .ok (Document.assign write.value write.placement.1 node) := by
        simp [Document.addAssignment, Document.belowRoot, hwrite, bind, Except.bind]
      rw [List.map_cons, List.foldlM_cons, hstep, List.map_cons]
      exact ih hrest

/-- The places of some assignments, of which the document is assembled. -/
structure Placed (tracker : Assignments) (placements : List Placement) : Prop where
  assembled : Converter.assemble tracker = .ok (place placements (.leaf Layout.rootName 1))
  /-- The paths are read as the places, in order. -/
  read : (tracker.entries.map fun entry => (Path.read entry.1, entry.2)) =
    placements.map fun p => (.ok (.element Layout.rootName 1 :: p.1), p.2)
  precedes : placements.Pairwise fun p q => Precedes rank Layout.rootName p.1 q.1
  isPlace : ∀ p ∈ placements, Segment.isPlace p.1 = true
  fits : ∀ p ∈ placements, Fits Layout.rootName p.1
  /-- The namespaces are declared first, and what follows is below the root. -/
  namespacesFirst : ∃ later,
    placements = namespaces.map (fun (name, uri) => ([.attr name], uri)) ++ later ∧
    ∀ p ∈ later, ∃ template ∈ elementTemplates, ∃ index, p.1 = (template.segments index).tail

theorem Composed.placed {source : Source} {tracker : Assignments} {writes : List Write}
    (h : Composed source tracker writes) : Placed tracker (writes.map Write.placement) := by
  have hmem := h.arranged.mem
  -- All else follows from how the paths are read: the document is assembled from what is read.
  have hread : ∀ write ∈ writes, Path.read (write.template.at write.index) =
      .ok (.element Layout.rootName 1 :: write.placement.1) := by
    intro write hwrite
    rw [← segments_eq_cons (hmem write hwrite)]
    exact Path.read_at (isProper_of_mem (hmem write hwrite)).1 (h.arranged.positive write hwrite)
      (h.writable write hwrite)
  refine ⟨?assembled, ?read, ?precedes, ?isPlace, ?fits, ?namespacesFirst⟩
  case assembled =>
    rw [Converter.assemble, Document.assemble, h.entries, foldlM_addAssignment hread]
    rfl
  case read =>
    rw [h.entries, List.map_map, List.map_map]
    exact List.map_congr_left fun write hwrite => Prod.ext (hread write hwrite) rfl
  case precedes =>
    rw [List.pairwise_map]
    refine h.arranged.pairwise.imp_of_mem fun {v w} hv hw hprecedes => ?_
    rw [segments_eq_cons (hmem v hv), segments_eq_cons (hmem w hw)] at hprecedes
    simpa [Precedes] using hprecedes
  case isPlace =>
    rw [List.forall_mem_map]
    intro write hwrite
    have hplace := isPlace_segments (isProper_of_mem (hmem write hwrite)).1.shaped write.index
    rwa [← Write.segments, segments_eq_cons (hmem write hwrite)] at hplace
  case fits =>
    rw [List.forall_mem_map]
    intro write hwrite
    have hfits := fits_segments (fits_of_mem (hmem write hwrite)) write.index
    rw [← Write.segments, segments_eq_cons (hmem write hwrite)] at hfits
    exact hfits.2
  case namespacesFirst =>
    obtain ⟨later, hlater, hbelow⟩ := h.namespacesFirst
    refine ⟨later.map Write.placement, by rw [hlater, List.map_append]; rfl, ?_⟩
    rw [List.forall_mem_map]
    exact fun write hwrite => ⟨write.template, hbelow write hwrite, write.index, rfl⟩

theorem exists_placed {source : Source} {tracker : Assignments}
    (hok : assignments source = .ok tracker) : ∃ placements, Placed tracker placements := by
  obtain ⟨given, -, h⟩ := exists_composed hok
  exact ⟨_, h.placed⟩

/-! ## Contents

The places of different writes precede each other in one direction, and so they are different. -/

/-- A document holds some assignments, which stand at some places below the root. -/
structure Holds (tracker : Assignments) (placements : List Placement) (document : Node) : Prop where
  /-- The paths are read as the places, in order. -/
  read : (tracker.entries.map fun entry => (Path.read entry.1, entry.2)) =
    placements.map fun p => (.ok (.element Layout.rootName 1 :: p.1), p.2)
  /-- The places are different. -/
  distinct : (placements.map Prod.fst).Nodup
  /-- Each value is found at its place. -/
  found : ∀ p ∈ placements, document.valueAt? p.1 = some p.2
  /-- There are no other texts and attributes. -/
  contents : document.contents.Perm placements
  /-- No element has both a text and children. -/
  unmixed : ∀ node ∈ document.nodes, node.Unmixed

/-- The document of a record holds exactly its assignments. -/
theorem document_holds_assignments {source : Source} {tracker : Assignments}
    (hok : assignments source = .ok tracker) :
    ∃ document placements, Converter.assemble tracker = .ok document ∧
      Holds tracker placements document := by
  obtain ⟨placements, h⟩ := exists_placed hok
  have hnodup := Document.nodup_of_pairwise h.precedes
  exact ⟨_, placements, h.assembled,
    { read := h.read
      distinct := hnodup
      found := Document.valueAt?_place h.isPlace hnodup
      contents := Document.contents_place h.isPlace hnodup
      unmixed := fun node hnode =>
        (Document.unmixed_and_inOrder_of_pairwise h.precedes node hnode).1 }⟩

/-- A record with a title, two keywords, a place and an altitude. -/
def sampleSource : Source :=
  sourceOf
    [(Attribute.title, [.text "Coast"]), (Attribute.keyword, [.text "sea", .text "land"]),
      (Attribute.crsCode, [.text "EPSG:4326"]), (Attribute.countryCode, [.text "GBR"]),
      (Attribute.location, [.text "POINT (1 50)"]), (Attribute.altitude, [.int 12])]

theorem succeeds_assignments_sampleSource : Succeeds (assignments sampleSource) :=
  succeeds_of_faultOf? (by decide +kernel)

theorem sample_document_holds_assignments :
    ∃ tracker document placements, assignments sampleSource = .ok tracker ∧
      Converter.assemble tracker = .ok document ∧ Holds tracker placements document := by
  obtain ⟨tracker, hok⟩ := succeeds_assignments_sampleSource
  obtain ⟨document, placements, hassemble, hholds⟩ := document_holds_assignments hok
  exact ⟨tracker, document, placements, hok, hassemble, hholds⟩

end GeoMetadata.Profile
