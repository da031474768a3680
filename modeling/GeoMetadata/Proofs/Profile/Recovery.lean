import GeoMetadata.Proofs.Profile.Serialization
import GeoMetadata.Proofs.Xml.Recovery

/-!
# The document of a record is recovered from its XML

The names below the root have the prefixes of the root, and the URIs of the root are different, so
that each name is shown as it is given (`shows_scope`).  So all nodes of the document of a record
are legible (`Placed.legible_root`, `Placed.isBelow`), and reading what is written gives the
document back (`document_recovered`).
-/

namespace GeoMetadata.Profile

open Document (Placement childKeys place)
open Xml (Item IsBelow Legible Shows isQualifiedName)

variable {tracker : Assignments} {placements : List Placement}

/-- Every namespace of the profile has one prefix. -/
theorem shows_scope : Shows scope prefixes [scope] where
  declares := declares_scope
  parts := by decide
  plain := by decide +kernel
  shown := by decide +kernel

theorem addDeclarations_scope : Xml.addDeclarations scope [[]] = .ok [scope] := by decide +kernel

/-- What a document holds below its root has names with the prefixes of the root. -/
theorem Named.isBelow {name : String} {index : Int} {placements : List Placement}
    (h : Named name placements)
    (hunmixed : (place placements (.leaf name index)).Unmixed) :
    IsBelow prefixes (place placements (.leaf name index)) where
  name := by
    rw [Document.name_place]
    exact h.name
  attributes := fun entry hentry =>
    (h.isNamed_of_mem_attributes entry (List.mem_filter.mp hentry).1).qualified
  declarations := by
    rw [h.declarations_eq_nil]
    exact fun declaration hdeclaration => nomatch hdeclaration
  distinct := by
    rw [h.declarations_eq_nil]
    exact List.nodup_nil
  unmixed := hunmixed
  declaresNone := h.declarations_eq_nil

theorem Placed.unmixed (h : Placed tracker placements) :
    ∀ node ∈ (place placements (.leaf Layout.rootName 1)).nodes, node.Unmixed :=
  fun node hnode => (Document.unmixed_and_inOrder_of_pairwise h.precedes node hnode).1

theorem Placed.legible_root (h : Placed tracker placements) :
    Legible prefixes (place placements (.leaf Layout.rootName 1)) where
  name := by
    rw [Document.name_place]
    decide
  attributes := by
    rw [h.plainAttributes_root]
    exact fun entry hentry => nomatch hentry
  declarations := by
    rw [h.declarations_root]
    decide +kernel
  distinct := by
    rw [h.declarations_root]
    decide
  unmixed := h.unmixed _ (by rw [Node.nodes_eq_cons]; exact List.mem_cons_self)

theorem Placed.isBelow (h : Placed tracker placements) :
    ∀ child ∈ (place placements (.leaf Layout.rootName 1)).children, ∀ node ∈ child.nodes,
      IsBelow prefixes node := by
  intro child hchild node hnode
  have hunmixed : node.Unmixed := by
    refine h.unmixed node ?_
    rw [Node.nodes_eq_cons, List.mem_cons, List.mem_flatMap]
    exact .inr ⟨child, hchild, hnode⟩
  rw [Document.place_leaf] at hchild
  obtain ⟨key, hkey, rfl⟩ := List.mem_map.mp hchild
  -- That no node is mixed is known of the whole document, and only the names are handed down.
  have hbelow : ∀ node ∈ (place (Document.below key placements) (.leaf key.1 key.2)).nodes,
      node.Unmixed → IsBelow prefixes node :=
    Document.forall_mem_nodes_place Named (fun hnamed hkey => hnamed.below hkey)
      (fun hnamed hunmixed => hnamed.isBelow hunmixed) (h.named_below hkey)
  exact hbelow node hnode hunmixed

/-- The two texts of the document of a record are read as the document: with the same nodes in the
same order, the names in the namespaces that the document declares, and the values with the
characters that XML can carry. The indented text has only white space beside elements more. -/
theorem document_recovered {source : Source} {tracker : Assignments}
    (hok : assignments source = .ok tracker) :
    ∃ document element item, Converter.assemble tracker = .ok document ∧
      Converter.element document = .ok element ∧ Item.ofNode [] document = .ok item ∧
      Xml.read? (element.toText false) = some item ∧
      (Xml.read? (element.toText true)).map Item.withoutBlanks = some item := by
  obtain ⟨placements, h⟩ := exists_placed hok
  have hroot := h.declarations_root
  -- Nothing below the root declares anything, so that its declarations are in scope throughout.
  have hshows : Shows (place placements (.leaf Layout.rootName 1)).declarations prefixes
      [(place placements (.leaf Layout.rootName 1)).declarations] := by
    rw [hroot]
    exact shows_scope
  have hdeclared : Xml.addDeclarations (place placements (.leaf Layout.rootName 1)).declarations [[]] =
      .ok [(place placements (.leaf Layout.rootName 1)).declarations] := by
    rw [hroot]
    exact addDeclarations_scope
  obtain ⟨element, item, hrecovered⟩ :=
    Xml.exists_recovered h.legible_root hshows hdeclared h.isBelow
  have hbuilt : Converter.element (place placements (.leaf Layout.rootName 1)) = .ok element := by
    rw [Converter.element, hrecovered.built]
    rfl
  exact ⟨_, element, item, h.assembled, hbuilt, hrecovered.namesResolved, hrecovered.flat,
    hrecovered.indented⟩

theorem sample_document_recovered :
    ∃ tracker document element item, assignments sampleSource = .ok tracker ∧
      Converter.assemble tracker = .ok document ∧ Converter.element document = .ok element ∧
      Item.ofNode [] document = .ok item ∧ Xml.read? (element.toText false) = some item ∧
      (Xml.read? (element.toText true)).map Item.withoutBlanks = some item := by
  obtain ⟨tracker, hok⟩ := succeeds_assignments_sampleSource
  obtain ⟨document, element, item, hrecovered⟩ := document_recovered hok
  exact ⟨tracker, document, element, item, hok, hrecovered⟩

end GeoMetadata.Profile
