import GeoMetadata.Proofs.Document.Order
import GeoMetadata.Proofs.Xml.Indentation
import GeoMetadata.Proofs.Xml.Prefixes

/-!
# Documents are recovered from their XML

`Item.ofNode` is a document as the rules of namespaces have it: its names are put in the namespaces
that are declared around them, and its values keep the characters that XML can carry.  Reading what
was written for the document gives this item (`exists_recovered`):

* the element of a document has the markup of the document (`exists_build`);
* the rules of namespaces put the names of that markup where the document has them
  (`exists_ofNode`).

What a node has to be for this is said of one node (`Legible`).
-/

namespace GeoMetadata.Xml

open Text

variable {scope : List Declaration}

/-! ## Documents as markup -/

/-- The attributes of the tag of a node: its declarations and then its own attributes. -/
def tagEntries (node : Node) : List (String × String) :=
  node.declarations.map declarationEntry ++ node.plainAttributes.map safeEntry

/-- The text of a node with the characters that XML can carry. A node without text has the empty
one. -/
def safeText (text : Option String) : String := (text.map safe).getD ""

mutual

/-- The markup of a node, with the names as they are given. -/
def Markup.ofNode : Node → Markup
  | ⟨name, index, written, attributes, children⟩ =>
    .element name (tagEntries ⟨name, index, written, attributes, []⟩)
      (textMarkup (safeText written) ++ Markup.ofNodes children)

/-- The markup of some nodes. -/
def Markup.ofNodes : List Node → List Markup
  | [] => []
  | node :: rest => Markup.ofNode node :: Markup.ofNodes rest

end

mutual

/-- A node as the rules of namespaces have it, below the declarations of `scope`. -/
def Item.ofNode (scope : List Declaration) : Node → Except BuildFault Item
  | ⟨name, index, written, attributes, children⟩ => do
    let node : Node := ⟨name, index, written, attributes, []⟩
    let scope := node.declarations ++ scope
    .ok (.element (← nameIn scope false name) (splitQualified name).1 node.declarations
      (← node.plainAttributes.mapM (attributeIn scope))
      (textItems (safeText written) ++ (← Item.ofNodes scope children)))

/-- Some nodes as the rules of namespaces have them. -/
def Item.ofNodes (scope : List Declaration) : List Node → Except BuildFault (List Item)
  | [] => .ok []
  | node :: rest => do .ok ((← Item.ofNode scope node) :: (← Item.ofNodes scope rest))

end

/-- The declaration can be written as an attribute. -/
def isWritable (declaration : Declaration) : Bool :=
  isAllowed declaration && declaration.1 != some "xml"
    && isPrefixedName (declarationEntry declaration).1 && isText declaration.2

theorem isWritable_iff {declaration : Declaration} :
    isWritable declaration = true ↔ isAllowed declaration = true ∧ declaration.1 ≠ some "xml" ∧
      isPrefixedName (declarationEntry declaration).1 = true ∧ isText declaration.2 = true := by
  simp only [isWritable, Bool.and_eq_true, bne_iff_ne, and_assoc]

/-- The names and the declarations of a node can be read again once they are written, and its text
stands alone. -/
structure Legible (prefixes : List String) (node : Node) : Prop where
  name : isQualifiedName prefixes node.name = true
  attributes : ∀ entry ∈ node.plainAttributes, isQualifiedName prefixes entry.1 = true
  declarations : ∀ declaration ∈ node.declarations, isWritable declaration = true
  distinct : (node.declarations.map Prod.fst).Nodup
  unmixed : node.Unmixed

section Entries

theorem declaredPrefix?_declarationEntry (declaration : Declaration) :
    Node.declaredPrefix? (declarationEntry declaration).1 = some declaration.1 := by
  obtain ⟨_ | declared, uri⟩ := declaration
  · rfl
  · have hlist : ("xmlns:" ++ declared).toList = "xmlns:".toList ++ declared.toList :=
      String.toList_append
    have hstart : "xmlns:".toList.isPrefixOf ("xmlns:" ++ declared).toList = true := by
      rw [hlist, List.isPrefixOf_iff_prefix]
      exact List.prefix_append _ _
    -- The name is longer than that of the default declaration.
    have hne : "xmlns:" ++ declared ≠ "xmlns" := by
      intro heq
      have hchars := congrArg (fun s => s.toList.length) heq
      simp only [hlist, List.length_append] at hchars
      have hlengths : "xmlns:".toList.length = 6 ∧ "xmlns".toList.length = 5 := by decide
      omega
    have hdrop : String.ofList (("xmlns:" ++ declared).toList.drop 6) = declared := by
      rw [hlist]
      exact String.ofList_toList
    rw [declarationEntry, Node.declaredPrefix?, if_neg hne, if_pos hstart, hdrop]

variable {node : Node}

theorem declaredPrefix?_of_mem_plainAttributes {entry : String × String}
    (h : entry ∈ node.plainAttributes) : Node.declaredPrefix? entry.1 = none :=
  Option.isNone_iff_eq_none.mp (List.mem_filter.mp h).2

theorem nodup_plainAttributes (node : Node) : (node.plainAttributes.map Prod.fst).Nodup :=
  node.attributes.nodup.sublist (List.filter_sublist.map Prod.fst)

theorem declaredBy_tagEntries (node : Node) : declaredBy (tagEntries node) = node.declarations := by
  have hplain : declaredBy (node.plainAttributes.map safeEntry) = [] := by
    rw [declaredBy, List.filterMap_map, List.filterMap_eq_nil_iff]
    intro entry hentry
    have hnone := declaredPrefix?_of_mem_plainAttributes hentry
    simp only [Function.comp_apply, safeEntry, hnone, Option.map_none]
  have hdeclared : declaredBy (node.declarations.map declarationEntry) = node.declarations := by
    rw [declaredBy, List.filterMap_map]
    refine (List.filterMap_congr fun declaration _ => ?_).trans List.filterMap_some
    simp only [Function.comp_apply, declaredPrefix?_declarationEntry, snd_declarationEntry,
      Option.map_some]
  rw [declaredBy] at hplain hdeclared
  rw [declaredBy, tagEntries, List.filterMap_append, hplain, hdeclared, List.append_nil]

theorem plainOf_tagEntries (node : Node) :
    plainOf (tagEntries node) = node.plainAttributes.map safeEntry := by
  have hnone : plainOf (node.declarations.map declarationEntry) = [] := by
    rw [plainOf, List.filter_eq_nil_iff, List.forall_mem_map]
    intro declaration _
    simp [declaredPrefix?_declarationEntry]
  have hall : plainOf (node.plainAttributes.map safeEntry) =
      node.plainAttributes.map safeEntry := by
    rw [plainOf, List.filter_eq_self, List.forall_mem_map]
    intro entry hentry
    simp [safeEntry, declaredPrefix?_of_mem_plainAttributes hentry]
  rw [plainOf] at hnone hall
  rw [plainOf, tagEntries, List.filter_append, hnone, hall, List.nil_append]

/-- No attribute stands twice in a tag. -/
theorem nodup_tagEntries (hdistinct : (node.declarations.map Prod.fst).Nodup) :
    ((tagEntries node).map Prod.fst).Nodup := by
  rw [tagEntries, List.map_append, List.nodup_append]
  refine ⟨?_, ?_, ?_⟩
  · -- The names of the declarations are told apart by what they declare.
    have hback : ((node.declarations.map declarationEntry).map Prod.fst).map Node.declaredPrefix? =
        (node.declarations.map Prod.fst).map some := by
      rw [List.map_map, List.map_map, List.map_map]
      exact List.map_congr_left fun declaration _ => declaredPrefix?_declarationEntry declaration
    refine List.Nodup.of_map Node.declaredPrefix? ?_
    rw [hback]
    exact hdistinct.map fun _ _ => Option.some.inj
  · rw [List.map_map]
    exact nodup_plainAttributes node
  · intro name hname other hother heq
    simp only [List.map_map, List.mem_map, Function.comp_apply] at hname hother
    obtain ⟨declaration, -, rfl⟩ := hname
    obtain ⟨entry, hentry, rfl⟩ := hother
    have hsome := declaredPrefix?_declarationEntry declaration
    have hnone := declaredPrefix?_of_mem_plainAttributes hentry
    rw [heq] at hsome
    exact absurd (hnone.symm.trans hsome) (Option.some_ne_none _).symm

end Entries

/-! ## The element of a document -/

/-- The element can be written, and it has the markup of the node. -/
structure Writes (element : Element) (node : Node) : Prop where
  spelled : element.Spelled
  unmixed : element.Unmixed
  markup : ∀ level, element.markup false level = Markup.ofNode node

/-- The elements can be written, and they have the markup of the nodes. -/
structure AllWrite (elements : List Element) (nodes : List Node) : Prop where
  spelled : Element.AllSpelled elements
  unmixed : Element.AllUnmixed elements
  markup : ∀ level, Element.markupAll false level elements = Markup.ofNodes nodes

theorem Markup.ofNode_eq (node : Node) :
    Markup.ofNode node = .element node.name (tagEntries node)
      (textMarkup (safeText node.text) ++ Markup.ofNodes node.children) := by
  obtain ⟨name, index, text, attributes, children⟩ := node
  rw [Markup.ofNode]
  rfl

section Heads

variable {prefixes : List String} {frames outer : Frames} {next : Nat} {node : Node}

theorem Legible.isShown_attributes (h : Legible prefixes node)
    (hshows : Shows scope prefixes frames) :
    ∀ entry ∈ node.plainAttributes, IsShown scope frames true entry.1 :=
  fun entry hentry => hshows.isShown (h.attributes entry hentry)

/-- Nothing is declared for the names of a legible node. -/
theorem buildHead_eq (h : Legible prefixes node) (hshows : Shows scope prefixes frames)
    (hdeclared : addDeclarations node.declarations ([] :: outer) = .ok frames) :
    buildHead node scope outer next = .ok ⟨nameOf scope false node.name,
      (splitQualified node.name).1, node.plainAttributes.map (attributeOf scope), frames, next⟩ := by
  have hname : IsShown scope frames false node.name := hshows.isShown h.name
  have hattributes := h.isShown_attributes hshows
  have hbuilt : buildAttributes scope node.plainAttributes [] frames next =
      .ok (node.plainAttributes.map (attributeOf scope), frames, next) :=
    buildAttributes_eq hattributes
      (nodup_map_name_attributeOf hattributes (nodup_plainAttributes node))
  refine buildHead_eq_ok_iff.mpr
    ⟨frames, hname.found, hname.part, hdeclared, hname.reference, ?_, ?_⟩
  · rw [hname.shown]
  · rw [hname.shown]
    exact hbuilt

theorem writtenEntries_attributeOf
    (hshown : ∀ entry ∈ node.plainAttributes, IsShown scope frames true entry.1) :
    writtenEntries node.declarations (node.plainAttributes.map (attributeOf scope)) =
      tagEntries node := by
  rw [writtenEntries, tagEntries, List.map_map]
  refine congrArg _ (List.map_congr_left fun entry hentry => ?_)
  exact Prod.ext (hshown entry hentry).spelled rfl

theorem Legible.isTag (h : Legible prefixes node) (hshows : Shows scope prefixes frames) :
    IsTag node.name (tagEntries node) where
  name := (@Shows.isShown _ _ _ false _ hshows h.name).prefixed
  names := by
    rw [tagEntries, List.forall_mem_append, List.forall_mem_map, List.forall_mem_map]
    refine ⟨fun declaration hdeclaration => ?_, fun entry hentry => ?_⟩
    · obtain ⟨-, -, hname, -⟩ := isWritable_iff.mp (h.declarations declaration hdeclaration)
      exact hname
    · exact (h.isShown_attributes hshows entry hentry).prefixed
  distinct := nodup_tagEntries h.distinct
  values := by
    rw [tagEntries, List.forall_mem_append, List.forall_mem_map, List.forall_mem_map]
    refine ⟨fun declaration hdeclaration => ?_, fun entry _ => safe_isText entry.2⟩
    obtain ⟨-, -, -, huri⟩ := isWritable_iff.mp (h.declarations declaration hdeclaration)
    rw [snd_declarationEntry]
    exact huri

/-- The element of a legible node has its markup if the children have theirs. -/
theorem Legible.writes {children : List Element} (h : Legible prefixes node)
    (hshows : Shows scope prefixes frames) (hchildren : AllWrite children node.children) :
    Writes ⟨nameOf scope false node.name, (splitQualified node.name).1, node.declarations,
      node.plainAttributes.map (attributeOf scope), node.text.map safe, children⟩ node := by
  have hspelled : writtenName (splitQualified node.name).1 (nameOf scope false node.name) =
      node.name := (@Shows.isShown _ _ _ false _ hshows h.name).spelled
  have hentries := writtenEntries_attributeOf (h.isShown_attributes hshows)
  constructor
  · rw [Element.Spelled, hspelled, hentries]
    refine ⟨h.isTag hshows, fun declaration hdeclaration => ?_, fun written hwritten => ?_,
      hchildren.spelled⟩
    · obtain ⟨-, hxml, -, -⟩ := isWritable_iff.mp (h.declarations declaration hdeclaration)
      exact hxml
    · obtain ⟨text, -, rfl⟩ := Option.map_eq_some_iff.mp hwritten
      exact safe_isText text
  · rw [Element.Unmixed]
    refine ⟨h.unmixed.imp (fun hnone => by rw [hnone]; rfl) fun hnil => ?_, hchildren.unmixed⟩
    -- There are as many elements as nodes, since they have the same markup.
    have hmarkup := hchildren.markup 0
    cases children with
    | nil => rfl
    | cons child rest =>
        rw [hnil, Element.markupAll] at hmarkup
        exact absurd hmarkup (by simp [Markup.ofNodes])
  · intro level
    rw [Markup.ofNode_eq]
    unfold Element.markup
    rw [hspelled, hentries, ← hchildren.markup (level + 1)]
    cases node.text with
    | none =>
        cases children with
        | nil => rfl
        | cons child rest =>
            simp only [Option.map_none, gap_false, List.append_nil, safeText, Option.getD_none,
              textMarkup, if_pos, List.nil_append]
    | some text => rfl

/-- The element of a legible node, whose children can be built. -/
theorem Legible.exists_build {children : List Element} (h : Legible prefixes node)
    (hshows : Shows (node.declarations ++ scope) prefixes frames)
    (hdeclared : addDeclarations node.declarations ([] :: outer) = .ok frames)
    (hown : frames.headD [] = node.declarations)
    (hbuilt : Element.buildAll (node.declarations ++ scope) frames next node.children =
      .ok (children, next)) (hchildren : AllWrite children node.children) :
    ∃ element, Element.build scope outer next node = .ok (element, next) ∧ Writes element node := by
  refine ⟨_, build_eq_ok_iff.mpr ⟨_, children, buildHead_eq h hshows hdeclared, hbuilt, rfl⟩, ?_⟩
  dsimp only
  rw [hown]
  exact h.writes hshows hchildren

end Heads

/-- A node below the root: it declares nothing. -/
structure IsBelow (prefixes : List String) (node : Node) : Prop extends Legible prefixes node where
  declaresNone : node.declarations = []

mutual

/-- The element of a node that is legible down to its leaves has the markup of the node. -/
theorem exists_build {prefixes : List String} {frames : Frames} {next : Nat}
    (hshows : Shows scope prefixes frames) (node : Node)
    (h : ∀ inner ∈ node.nodes, IsBelow prefixes inner) :
    ∃ element, Element.build scope frames next node = .ok (element, next) ∧ Writes element node := by
  cases node with
  | mk name index text attributes children =>
      rw [Node.nodes, List.forall_mem_cons] at h
      obtain ⟨hnode, hbelow⟩ := h
      obtain ⟨elements, hbuilt, hwrite⟩ := exists_buildAll hshows.nested children hbelow
      have hdeclared : addDeclarations (⟨name, index, text, attributes, children⟩ : Node).declarations
          ([] :: frames) = .ok ([] :: frames) := by
        rw [hnode.declaresNone]
        rfl
      refine hnode.exists_build ?_ hdeclared hnode.declaresNone.symm ?_ hwrite
      · rw [hnode.declaresNone]
        exact hshows.nested
      · rw [hnode.declaresNone]
        exact hbuilt

theorem exists_buildAll {prefixes : List String} {frames : Frames} {next : Nat}
    (hshows : Shows scope prefixes frames) (nodes : List Node)
    (h : ∀ inner ∈ Node.nodesOfAll nodes, IsBelow prefixes inner) :
    ∃ elements, Element.buildAll scope frames next nodes = .ok (elements, next) ∧
      AllWrite elements nodes := by
  cases nodes with
  | nil => exact ⟨[], rfl, trivial, trivial, fun _ => rfl⟩
  | cons node rest =>
      rw [Node.nodesOfAll, List.forall_mem_append] at h
      obtain ⟨element, hbuilt, hwrites⟩ := exists_build hshows node h.1
      obtain ⟨elements, hrest, hwrite⟩ := exists_buildAll hshows rest h.2
      refine ⟨element :: elements,
        buildAll_cons_eq_ok_iff.mpr ⟨element, next, elements, hbuilt, hrest, rfl⟩,
        ⟨hwrites.spelled, hwrite.spelled⟩, ⟨hwrites.unmixed, hwrite.unmixed⟩, fun level => ?_⟩
      rw [Element.markupAll, gap_false, List.nil_append, hwrites.markup, hwrite.markup,
        Markup.ofNodes]

end

/-! ## Names of the markup -/

/-- The rules of namespaces put a legible node where the document has it. -/
theorem Legible.exists_ofNode {prefixes : List String} {frames : Frames} {node : Node}
    {items : List Item} (h : Legible prefixes node)
    (hshows : Shows (node.declarations ++ scope) prefixes frames)
    (hitems : Item.ofNodes (node.declarations ++ scope) node.children = .ok items)
    (hread : resolveAll? (node.declarations ++ scope) (Markup.ofNodes node.children) = some items) :
    ∃ item, Item.ofNode scope node = .ok item ∧ resolve? scope (Markup.ofNode node) = some item := by
  have hname : IsShown (node.declarations ++ scope) frames false node.name := hshows.isShown h.name
  have hattributes := h.isShown_attributes hshows
  refine ⟨.element (nameOf (node.declarations ++ scope) false node.name) (splitQualified node.name).1
    node.declarations (node.plainAttributes.map (attributeOf (node.declarations ++ scope)))
    (textItems (safeText node.text) ++ items), ?_, ?_⟩
  · have hentries := mapM_attributeIn hattributes
    obtain ⟨name, index, text, attributes, children⟩ := node
    rw [Item.ofNode]
    exact bind_eq_ok_iff.mpr ⟨_, hname.found, bind_eq_ok_iff.mpr
      ⟨_, hentries, bind_eq_ok_iff.mpr ⟨items, hitems, rfl⟩⟩⟩
  · have hallowed : node.declarations.all isAllowed = true := by
      rw [List.all_eq_true]
      intro declaration hdeclaration
      exact (isWritable_iff.mp (h.declarations declaration hdeclaration)).1
    rw [Markup.ofNode_eq, resolve?_element_eq_some_iff, declaredBy_tagEntries, plainOf_tagEntries]
    exact ⟨hallowed, _, _, _, hname.read,
      expandAttributes?_map_safeEntry hattributes (nodup_plainAttributes node),
      resolveAll?_append (resolveAll?_textMarkup _) hread, rfl⟩

mutual

theorem exists_ofNode {prefixes : List String} {frames : Frames}
    (hshows : Shows scope prefixes frames) (node : Node)
    (h : ∀ inner ∈ node.nodes, IsBelow prefixes inner) :
    ∃ item, Item.ofNode scope node = .ok item ∧ resolve? scope (Markup.ofNode node) = some item := by
  cases node with
  | mk name index text attributes children =>
      rw [Node.nodes, List.forall_mem_cons] at h
      obtain ⟨hnode, hbelow⟩ := h
      obtain ⟨items, hitems, hread⟩ := exists_ofNodes hshows children hbelow
      have hscope :
          (⟨name, index, text, attributes, children⟩ : Node).declarations ++ scope = scope := by
        rw [hnode.declaresNone, List.nil_append]
      rw [← hscope] at hshows hitems hread
      exact hnode.exists_ofNode hshows hitems hread

theorem exists_ofNodes {prefixes : List String} {frames : Frames}
    (hshows : Shows scope prefixes frames) (nodes : List Node)
    (h : ∀ inner ∈ Node.nodesOfAll nodes, IsBelow prefixes inner) :
    ∃ items, Item.ofNodes scope nodes = .ok items ∧
      resolveAll? scope (Markup.ofNodes nodes) = some items := by
  cases nodes with
  | nil => exact ⟨[], rfl, rfl⟩
  | cons node rest =>
      rw [Node.nodesOfAll, List.forall_mem_append] at h
      obtain ⟨item, hitem, hfirst⟩ := exists_ofNode hshows node h.1
      obtain ⟨items, hitems, hothers⟩ := exists_ofNodes hshows rest h.2
      refine ⟨item :: items, ?_, ?_⟩
      · rw [Item.ofNodes]
        exact bind_eq_ok_iff.mpr ⟨item, hitem, bind_eq_ok_iff.mpr ⟨items, hitems, rfl⟩⟩
      · rw [Markup.ofNodes]
        exact resolveAll?_cons_eq_some_iff.mpr ⟨item, items, hfirst, hothers, rfl⟩

end

/-! ## Documents -/

/-- The element of a document, and what both of its texts are read as. -/
structure Recovered (root : Node) (element : Element) (item : Item) : Prop where
  built : Element.ofNode root = .ok element
  namesResolved : Item.ofNode [] root = .ok item
  flat : read? (element.toText false) = some item
  indented : (read? (element.toText true)).map Item.withoutBlanks = some item

/-- A legible document whose root alone declares namespaces is recovered from both of its texts. -/
theorem exists_recovered {prefixes : List String} {root : Node} (hroot : Legible prefixes root)
    (hshows : Shows root.declarations prefixes [root.declarations])
    (hdeclared : addDeclarations root.declarations [[]] = .ok [root.declarations])
    (hbelow : ∀ child ∈ root.children, ∀ node ∈ child.nodes, IsBelow prefixes node) :
    ∃ element item, Recovered root element item := by
  have hshows : Shows (root.declarations ++ []) prefixes [root.declarations] := by
    rw [List.append_nil]
    exact hshows
  have hchildren : ∀ inner ∈ Node.nodesOfAll root.children, IsBelow prefixes inner := by
    rw [Node.nodesOfAll_eq_flatMap, List.forall_mem_flatMap]
    exact hbelow
  obtain ⟨elements, hbuilt, hwrite⟩ := @exists_buildAll _ _ _ 0 hshows root.children hchildren
  -- The root is built and read as the nodes below it are, but it declares what is in scope there.
  obtain ⟨element, hok, hwrites⟩ := hroot.exists_build hshows hdeclared rfl hbuilt hwrite
  obtain ⟨items, hitems, hothers⟩ := exists_ofNodes hshows root.children hchildren
  obtain ⟨item, hitem, hread⟩ := hroot.exists_ofNode hshows hitems hothers
  have hflat : resolve? [] (element.markup false 0) = some item := by
    rw [hwrites.markup]
    exact hread
  obtain ⟨spaced, hspaced, hsame⟩ := exists_resolve?_indented 0 element hwrites.unmixed hflat
  refine ⟨element, item, ?_, hitem, ?_, ?_⟩
  · rw [Element.ofNode, hok]
    rfl
  · rw [read?_toText false hwrites.spelled, hflat]
  · rw [read?_toText true hwrites.spelled, hspaced, Option.map_some, hsame]

end GeoMetadata.Xml
