import GeoMetadata.Proofs.Profile.Document
import GeoMetadata.Proofs.Xml.Building

/-!
# Every document of a record is an XML document

The namespaces are assigned first and at the root, and nothing below the root declares any.  So all
names of a document are looked up in the same declarations (`scope`), those of the root.

* The attributes of the root are the namespaces (`attributes_root`), so that it declares `scope`.
* All other nodes are made of placements whose segments are names of XML with the prefixes of the
  root (`Named`).  Going down from a node to its children keeps this (`Named.below`), and a node
  that is made of such placements declares nothing and can be written (`Named.hasHead`).

Together with what is known of the paths, this is all that assembly and serialization can fail on
(`exists_serialized`).
-/

namespace GeoMetadata

/-- The prefixes in the name of a node and in the names of its attributes, but for those that
declare namespaces. -/
def Node.usedPrefixes (node : Node) : List String :=
  (node.name :: node.plainAttributes.map Prod.fst).filterMap fun name => (splitQualified name).1

namespace Profile

open Document (Placement below childKeys childOf ownAttribute? place)
open GeoMetadata.Path (Template)
open Xml (Declaration HasHead isAttributeName isElementName isQualifiedName)

/-- The declarations that the namespaces of the profile make. -/
def scope : List Declaration :=
  namespaces.filterMap fun (name, uri) =>
    (Node.declaredPrefix? name).map fun declared => (declared, uri)

theorem declares_scope : Xml.Declares scope prefixes := ⟨by decide +kernel, by decide +kernel⟩

/-! ## Names below the root

The names come from a table, of which it is checked once that they are names of XML.  In the tree
they are found again by going down from placements to those below a child. -/

/-- The name of a segment is a name of XML, and it declares no namespace. -/
structure IsNamed (segment : Segment) : Prop where
  qualified : isQualifiedName prefixes segment.name = true
  plain : ∀ name, segment = .attr name → Node.declaredPrefix? name = none

/-- A node and the places below it have names of XML, and none declares a namespace. -/
structure Named (name : String) (placements : List Placement) : Prop where
  name : isQualifiedName prefixes name = true
  segments : ∀ p ∈ placements, ∀ segment ∈ p.1, IsNamed segment

theorem Named.below {name : String} {placements : List Placement} {key : String × Nat}
    (h : Named name placements) (hkey : key ∈ childKeys placements) :
    Named key.1 (below key placements) := by
  obtain ⟨⟨segments, value⟩, hmem, hhead⟩ := Document.mem_childKeys.mp hkey
  constructor
  · rcases segments with _ | ⟨⟨childName, childIndex⟩ | attrName, rest⟩
    · nomatch hhead
    · obtain rfl := Option.some.inj hhead
      exact (h.segments _ hmem _ List.mem_cons_self).qualified
    · nomatch hhead
  · rintro ⟨rest, value⟩ hrest segment hsegment
    exact h.segments _ (Document.mem_below.mp hrest) segment (List.mem_cons_of_mem _ hsegment)

/-- An attribute of a node comes from a placement at the node. -/
theorem Named.isNamed_of_mem_attributes {name : String} {index : Int} {placements : List Placement}
    (h : Named name placements) :
    ∀ entry ∈ (place placements (.leaf name index)).attributes.entries, IsNamed (.attr entry.1) := by
  intro entry hentry
  rw [Document.place_leaf] at hentry
  have hmem := OrderedMap.mem_of_mem_entries_ofList hentry
  obtain ⟨⟨segments, value⟩, hp, hown⟩ := List.mem_filterMap.mp hmem
  rcases segments with _ | ⟨⟨childName, childIndex⟩ | attrName, rest⟩
  · nomatch hown
  · nomatch hown
  · obtain rfl := Option.some.inj hown
    exact h.segments _ hp _ List.mem_cons_self

theorem Named.declarations_eq_nil {name : String} {index : Int} {placements : List Placement}
    (h : Named name placements) : (place placements (.leaf name index)).declarations = [] := by
  rw [Node.declarations, List.filterMap_eq_nil_iff]
  rintro ⟨attrName, value⟩ hentry
  have hplain := (h.isNamed_of_mem_attributes _ hentry).plain attrName rfl
  simp only [hplain, Option.map_none]

theorem Named.hasHead {name : String} {index : Int} {placements : List Placement}
    (h : Named name placements) : HasHead scope (place placements (.leaf name index)) where
  name := by
    rw [Document.name_place]
    exact Xml.isElementName_of_isQualifiedName declares_scope h.name
  declarations := by
    rw [h.declarations_eq_nil]
    exact fun declaration hdeclaration => nomatch hdeclaration
  attributes := by
    intro entry hentry
    have hnamed := h.isNamed_of_mem_attributes entry (List.mem_filter.mp hentry).1
    exact Xml.isAttributeName_of_isQualifiedName declares_scope hnamed.qualified

/-! ## The root -/

/-- The template leads to an element below the root, and to no attribute that declares anything. -/
def isBelowRoot : Template → Bool
  | _ :: first :: rest =>
    first.elementName?.isSome && (first :: rest).all fun
      | .attr name => (Node.declaredPrefix? name).isNone
      | _ => true
  | _ => false

theorem isBelowRoot_of_mem {template : Template} (h : template ∈ elementTemplates) :
    isBelowRoot template = true := by
  -- The table of templates is closed, and is looked through once.
  have hall : ∀ template ∈ elementTemplates, isBelowRoot template = true := by decide +kernel
  exact hall template h

/-- A place of such a template leads through a child of the root, and its segments have names. -/
theorem exists_eq_cons_of_mem {template : Template} (h : template ∈ elementTemplates) (index : Nat) :
    ∃ name number rest, (template.segments index).tail = .element name number :: rest ∧
      ∀ segment ∈ (template.segments index).tail, IsNamed segment := by
  have hqualified := isQualifiedName_of_mem h
  have hbelow := isBelowRoot_of_mem h
  match template, hbelow, hqualified with
  | root :: first :: rest, hbelow, hqualified =>
    rw [isBelowRoot, Bool.and_eq_true, List.all_eq_true] at hbelow
    obtain ⟨hfirst, hplain⟩ := hbelow
    have hnamed : ∀ segment ∈ first :: rest, IsNamed (segment.segment index) := by
      intro segment hsegment
      have hname := hqualified segment (List.mem_cons_of_mem _ hsegment)
      have hattr := hplain segment hsegment
      cases segment with
      | single name => exact ⟨hname, fun _ h => nomatch h⟩
      | «repeated» name => exact ⟨hname, fun _ h => nomatch h⟩
      | attr name =>
          refine ⟨hname, fun other heq => ?_⟩
          obtain rfl := Segment.attr.inj heq
          exact Option.isNone_iff_eq_none.mp hattr
    have htail : (Template.segments (root :: first :: rest) index).tail =
        (first :: rest).map (Path.TemplateSegment.segment index) := by
      rw [Path.Template.segments_cons, List.tail_cons, Path.Template.segments_eq_map]
    rw [htail, List.forall_mem_map, List.map_cons]
    cases first with
    | single name => exact ⟨name, 1, _, rfl, hnamed⟩
    | «repeated» name => exact ⟨name, index, _, rfl, hnamed⟩
    | attr name => nomatch hfirst

variable {tracker : Assignments} {placements : List Placement}

/-- The attributes of the root are the namespaces. -/
theorem Placed.attributes_root (h : Placed tracker placements) :
    (place placements (.leaf Layout.rootName 1)).attributes.entries = namespaces := by
  obtain ⟨later, hsplit, hlater⟩ := h.namespacesFirst
  -- All later writes lead through a child of the root.
  have hnone : later.filterMap ownAttribute? = [] := by
    rw [List.filterMap_eq_nil_iff]
    rintro ⟨segments, value⟩ hp
    obtain ⟨template, htemplate, index, hsegments⟩ := hlater _ hp
    obtain ⟨name, number, rest, hcons, -⟩ := exists_eq_cons_of_mem htemplate index
    simp only at hsegments
    rw [hsegments, hcons]
    rfl
  have hown : placements.filterMap ownAttribute? = namespaces := by
    rw [hsplit, List.filterMap_append, hnone, List.append_nil]
    rfl
  rw [Document.place_leaf, hown]
  exact OrderedMap.entries_ofList_of_nodup (by decide)

theorem Placed.declarations_root (h : Placed tracker placements) :
    (place placements (.leaf Layout.rootName 1)).declarations = scope := by
  rw [Node.declarations, h.attributes_root]
  rfl

theorem Placed.plainAttributes_root (h : Placed tracker placements) :
    (place placements (.leaf Layout.rootName 1)).plainAttributes = [] := by
  rw [Node.plainAttributes, h.attributes_root]
  decide

theorem Placed.hasHead_root (h : Placed tracker placements) :
    HasHead scope (place placements (.leaf Layout.rootName 1)) where
  name := by
    rw [Document.name_place]
    exact Xml.isElementName_of_isQualifiedName declares_scope (by decide)
  declarations := by
    rw [h.declarations_root]
    decide +kernel
  attributes := by
    rw [h.plainAttributes_root]
    exact fun entry hentry => nomatch hentry

/-- What leads through a child of the root is not a namespace, so that all of it has names. -/
theorem Placed.named_below (h : Placed tracker placements) {key : String × Nat}
    (hkey : key ∈ childKeys placements) : Named key.1 (below key placements) := by
  obtain ⟨later, hsplit, hlater⟩ := h.namespacesFirst
  have hsegments : ∀ rest value, (.element key.1 key.2 :: rest, value) ∈ placements →
      ∀ segment ∈ Segment.element key.1 key.2 :: rest, IsNamed segment := by
    intro rest value hmem
    rw [hsplit, List.mem_append] at hmem
    rcases hmem with hmem | hmem
    · obtain ⟨⟨name, uri⟩, -, heq⟩ := List.mem_map.mp hmem
      nomatch heq
    · obtain ⟨template, htemplate, index, heq⟩ := hlater _ hmem
      obtain ⟨-, -, -, -, hnamed⟩ := exists_eq_cons_of_mem htemplate index
      exact fun segment hsegment => hnamed segment (heq ▸ hsegment)
  constructor
  · obtain ⟨⟨segments, value⟩, hmem, hhead⟩ := Document.mem_childKeys.mp hkey
    rcases segments with _ | ⟨⟨childName, childIndex⟩ | attrName, rest⟩
    · nomatch hhead
    · obtain rfl := Option.some.inj hhead
      exact (hsegments rest value hmem _ List.mem_cons_self).qualified
    · nomatch hhead
  · rintro ⟨rest, value⟩ hrest segment hsegment
    exact hsegments rest value (Document.mem_below.mp hrest) segment
      (List.mem_cons_of_mem _ hsegment)

/-! ## The document -/

theorem Placed.hasHead_below (h : Placed tracker placements) :
    ∀ child ∈ (place placements (.leaf Layout.rootName 1)).children, ∀ node ∈ child.nodes,
      node.declarations = [] ∧ HasHead scope node := by
  rw [Document.place_leaf]
  intro child hchild
  obtain ⟨key, hkey, rfl⟩ := List.mem_map.mp hchild
  exact Document.forall_mem_nodes_place Named (fun hnamed hkey => hnamed.below hkey)
    (fun hnamed => ⟨hnamed.declarations_eq_nil, hnamed.hasHead⟩) (h.named_below hkey)

theorem Placed.hasHead_of_mem_nodes (h : Placed tracker placements) :
    ∀ node ∈ (place placements (.leaf Layout.rootName 1)).nodes, HasHead scope node := by
  intro node hnode
  rw [Node.nodes_eq_cons, List.mem_cons, List.mem_flatMap] at hnode
  rcases hnode with rfl | ⟨child, hchild, hnode⟩
  · exact h.hasHead_root
  · exact (h.hasHead_below child hchild node hnode).2

theorem mem_of_mem_usedPrefixes {node : Node} (h : HasHead scope node) :
    ∀ declared ∈ node.usedPrefixes, some declared ∈ scope.map Prod.fst := by
  intro declared hdeclared
  obtain ⟨name, hname, hsplit⟩ := List.mem_filterMap.mp hdeclared
  have hsplit : splitQualified name = (some declared, (splitQualified name).2) :=
    Prod.ext hsplit rfl
  rcases List.mem_cons.mp hname with rfl | hname
  · obtain ⟨found, hok, -⟩ := Xml.isElementName_iff.mp h.name
    exact Xml.mem_of_nameIn_eq_ok hok hsplit
  · obtain ⟨entry, hentry, rfl⟩ := List.mem_map.mp hname
    obtain ⟨found, hok, -⟩ := Xml.isAttributeName_iff.mp (h.attributes entry hentry)
    exact Xml.mem_of_nameIn_eq_ok hok hsplit

/-- The assignments of a record are made into a document and its element. -/
structure Serialized (tracker : Assignments) (document : Node) (element : Xml.Element) : Prop where
  /-- No placeholder is left in a path, and every path is read and starts at the root. -/
  paths : ∀ entry ∈ tracker.entries, Text.contains Path.placeholder entry.1.toList = false ∧
    ∃ rest, Path.read entry.1 = .ok (.element Layout.rootName 1 :: rest)
  assembled : Converter.assemble tracker = .ok document
  /-- Every prefix in the name of an element or of an attribute is declared at the root. -/
  prefixes : ∀ node ∈ document.nodes, ∀ declared ∈ node.usedPrefixes,
    some declared ∈ document.declarations.map Prod.fst
  built : Converter.element document = .ok element
  /-- All texts and values of attributes are made of characters of XML. -/
  texts : ∀ text ∈ element.texts, Xml.isText text = true

theorem Placed.read_of_mem (h : Placed tracker placements) {entry : String × String}
    (hentry : entry ∈ tracker.entries) :
    ∃ rest, Path.read entry.1 = .ok (.element Layout.rootName 1 :: rest) := by
  have hmem : (Path.read entry.1, entry.2) ∈
      tracker.entries.map fun entry => (Path.read entry.1, entry.2) :=
    List.mem_map.mpr ⟨entry, hentry, rfl⟩
  rw [h.read] at hmem
  obtain ⟨p, -, hp⟩ := List.mem_map.mp hmem
  exact ⟨p.1, (Prod.mk.inj hp).1.symm⟩

/-- From the assignments of a record on, nothing fails. -/
theorem exists_serialized {source : Source} {tracker : Assignments}
    (hok : assignments source = .ok tracker) :
    ∃ document element, Serialized tracker document element := by
  obtain ⟨placements, h⟩ := exists_placed hok
  have hroot := h.declarations_root
  obtain ⟨element, helement⟩ := Xml.succeeds_ofNode (hroot ▸ h.hasHead_root) (hroot ▸ h.hasHead_below)
  have hbuilt : Converter.element (place placements (.leaf Layout.rootName 1)) = .ok element := by
    rw [Converter.element, helement]
    rfl
  refine ⟨_, element, ?paths, h.assembled, ?prefixes, hbuilt, Xml.isText_of_ofNode helement⟩
  case paths =>
    intro entry hentry
    obtain ⟨rest, hread⟩ := h.read_of_mem hentry
    exact ⟨Path.contains_placeholder_of_read_eq_ok hread, rest, hread⟩
  case prefixes =>
    rw [hroot]
    exact fun node hnode => mem_of_mem_usedPrefixes (h.hasHead_of_mem_nodes node hnode)

end Profile

end GeoMetadata
