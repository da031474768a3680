import GeoMetadata.Proofs.Document.Placement
import GeoMetadata.Proofs.Xml.Naming

/-!
# When a document is an XML document

The element of a document is built from the top down.  What is passed on on the way, the frames and
the next number, decides how a name is *written*; whether it can be written is decided by the
declarations in scope alone.  So each part of a node has a condition that does not mention frames
and numbers, and `Buildable` collects them down the tree:

* `buildHead_eq_ok_iff` says what building the head of a node comes to, step by step;
* `succeeds_build`: an element can be built exactly from a buildable tree;
* `isText_of_ofNode`: whatever the values of the document are, the texts and the attribute values
  of the element are made of characters of XML.
-/

namespace GeoMetadata

namespace Xml

variable {scope : List Declaration} {frames outer : Frames} {next : Nat}

/-! ## The head of an element -/

/-- The prefix and the URI can be declared. -/
def isDeclaration (declaration : Declaration) : Bool :=
  isText declaration.2 && Uri.isReference declaration.2
    && declaration.1.all fun declared => isText declared && isNamePart declared

/-- The prefix that a name is written with, and the frames and the next number after it. -/
def shownIn (isAttribute : Bool) (name : Name) (frames : Frames) (next : Nat) :
    Option String × Frames × Nat :=
  match name.uri with
  | none => (none, frames, next)
  | some uri => choosePrefix isAttribute uri frames next

theorem addDeclarations_cons_eq_ok_iff {declaration : Declaration} {rest : List Declaration}
    {found : Frames} :
    addDeclarations (declaration :: rest) frames = .ok found ↔
      isDeclaration declaration = true ∧
        addDeclarations rest
          (if frames.find? declaration.1 = some declaration.2 then frames
          else frames.declare declaration) = .ok found := by
  obtain ⟨declared, uri⟩ := declaration
  rw [addDeclarations, isDeclaration]
  cases isText uri <;> cases Uri.isReference uri <;> cases declared with
  | none => simp [bind, Except.bind]
  | some name =>
      simp only [Option.all_some]
      cases isText name <;> cases isNamePart name <;> simp [bind, Except.bind]

theorem succeeds_addDeclarations {declarations : List Declaration} :
    Succeeds (addDeclarations declarations frames) ↔
      ∀ declaration ∈ declarations, isDeclaration declaration = true := by
  induction declarations generalizing frames with
  | nil => simp [addDeclarations]
  | cons declaration rest ih =>
      rw [List.forall_mem_cons, ← ih]
      constructor
      · rintro ⟨found, hfound⟩
        obtain ⟨hfirst, hrest⟩ := addDeclarations_cons_eq_ok_iff.mp hfound
        exact ⟨hfirst, found, hrest⟩
      · rintro ⟨hfirst, found, hrest⟩
        exact ⟨found, addDeclarations_cons_eq_ok_iff.mpr ⟨hfirst, hrest⟩⟩

theorem buildAttributes_cons_eq_ok_iff {key value : String} {rest : List (String × String)}
    {done : List Attribute} {found : List Attribute × Frames × Nat} :
    buildAttributes scope ((key, value) :: rest) done frames next = .ok found ↔
      ∃ name, nameIn scope true key = .ok name ∧ isNamePart name.part = true ∧
        buildAttributes scope rest
          (setAttribute ⟨name, (shownIn true name frames next).1, safe value⟩ done)
          (shownIn true name frames next).2.1 (shownIn true name frames next).2.2 = .ok found := by
  rw [buildAttributes, nameIn, ← bind_assoc, bind_eq_ok_iff]
  refine exists_congr fun name => and_congr_right fun _ => ?_
  cases isNamePart name.part with
  | false => simp [bind, Except.bind]
  | true =>
      obtain ⟨uri, part⟩ := name
      cases uri <;> simp [shownIn]

theorem succeeds_buildAttributes {attributes : List (String × String)} {done : List Attribute} :
    Succeeds (buildAttributes scope attributes done frames next) ↔
      ∀ entry ∈ attributes, isAttributeName scope entry.1 = true := by
  induction attributes generalizing done frames next with
  | nil => simp [buildAttributes]
  | cons entry rest ih =>
      obtain ⟨key, value⟩ := entry
      rw [List.forall_mem_cons, isAttributeName_iff]
      constructor
      · rintro ⟨found, hfound⟩
        obtain ⟨name, hname, hpart, hrest⟩ := buildAttributes_cons_eq_ok_iff.mp hfound
        exact ⟨⟨name, hname, hpart⟩, ih.mp ⟨found, hrest⟩⟩
      · rintro ⟨⟨name, hname, hpart⟩, hrest⟩
        obtain ⟨found, hfound⟩ := ih.mpr hrest
        exact ⟨found, buildAttributes_cons_eq_ok_iff.mpr ⟨name, hname, hpart, hfound⟩⟩

/-- The head of a node is built in three steps, which look at the name, the declarations and the
attributes. -/
theorem buildHead_eq_ok_iff {node : Node} {head : Head} :
    buildHead node scope outer next = .ok head ↔
      ∃ frames, nameIn scope false node.name = .ok head.name ∧ isNamePart head.name.part = true ∧
        addDeclarations node.declarations ([] :: outer) = .ok frames ∧
        head.name.uri.all Uri.isReference = true ∧
        (shownIn false head.name frames next).1 = head.shownPrefix ∧
        buildAttributes scope node.plainAttributes [] (shownIn false head.name frames next).2.1
          (shownIn false head.name frames next).2.2 =
            .ok (head.attributes, head.frames, head.next) := by
  rw [buildHead, ← bind_assoc, bind_eq_ok_iff]
  constructor
  · -- The steps are taken apart in their order; each check that is not passed ends in a fault.
    rintro ⟨⟨uri, part⟩, hname, hok⟩
    cases hpart : isNamePart part with
    | false => simp [hpart, bind, Except.bind] at hok
    | true =>
        simp only [hpart, Bool.not_true, Bool.false_eq_true, if_false] at hok
        obtain ⟨declared, hdeclared, hok⟩ := bind_eq_ok_iff.mp hok
        cases uri with
        | none =>
            simp only [pure_bind] at hok
            obtain ⟨⟨attributes, after, number⟩, hattributes, hhead⟩ := bind_eq_ok_iff.mp hok
            obtain rfl := Except.ok.inj hhead
            exact ⟨declared, hname, hpart, hdeclared, rfl, rfl, hattributes⟩
        | some uri =>
            cases huri : Uri.isReference uri with
            | false => simp [huri, bind, Except.bind] at hok
            | true =>
                simp only [huri, Bool.not_true, Bool.false_eq_true, if_false, pure_bind] at hok
                obtain ⟨⟨attributes, after, number⟩, hattributes, hhead⟩ := bind_eq_ok_iff.mp hok
                obtain rfl := Except.ok.inj hhead
                exact ⟨declared, hname, hpart, hdeclared, huri, rfl, hattributes⟩
  · -- The checks are passed, and the shown prefix is what the frames give for the name.
    obtain ⟨⟨uri, part⟩, shown, attributes, after, number⟩ := head
    rintro ⟨declared, hname, hpart, hdeclared, huri, hshown, hattributes⟩
    dsimp only at hname hpart huri hshown hattributes
    subst hshown
    refine ⟨⟨uri, part⟩, hname, ?_⟩
    simp only [hpart, Bool.not_true, Bool.false_eq_true, if_false]
    refine bind_eq_ok_iff.mpr ⟨declared, hdeclared, ?_⟩
    cases uri with
    | none =>
        simp only [pure_bind]
        exact bind_eq_ok_iff.mpr ⟨_, hattributes, rfl⟩
    | some uri =>
        rw [Option.all_some] at huri
        simp only [huri, Bool.not_true, Bool.false_eq_true, if_false, pure_bind]
        exact bind_eq_ok_iff.mpr ⟨_, hattributes, rfl⟩

/-- The name, the declarations and the attributes of a node can be written below some declarations,
which are its own and those around it. -/
structure HasHead (scope : List Declaration) (node : Node) : Prop where
  name : isElementName scope node.name = true
  declarations : ∀ declaration ∈ node.declarations, isDeclaration declaration = true
  attributes : ∀ entry ∈ node.plainAttributes, isAttributeName scope entry.1 = true

theorem succeeds_buildHead {node : Node} :
    Succeeds (buildHead node scope outer next) ↔ HasHead scope node := by
  constructor
  · rintro ⟨head, hok⟩
    obtain ⟨declared, hname, hpart, hdeclared, huri, -, hattributes⟩ := buildHead_eq_ok_iff.mp hok
    exact ⟨isElementName_iff.mpr ⟨_, hname, hpart, huri⟩,
      succeeds_addDeclarations.mp ⟨_, hdeclared⟩, succeeds_buildAttributes.mp ⟨_, hattributes⟩⟩
  · intro h
    obtain ⟨name, hname, hpart, huri⟩ := isElementName_iff.mp h.name
    obtain ⟨declared, hdeclared⟩ := succeeds_addDeclarations.mpr h.declarations
    have hattributes (after : Frames) (number : Nat) :
        Succeeds (buildAttributes scope node.plainAttributes [] after number) :=
      succeeds_buildAttributes.mpr h.attributes
    obtain ⟨⟨attributes, after, number⟩, hattributes⟩ :=
      hattributes (shownIn false name declared next).2.1 (shownIn false name declared next).2.2
    refine ⟨⟨name, (shownIn false name declared next).1, attributes, after, number⟩, ?_⟩
    exact buildHead_eq_ok_iff.mpr ⟨declared, hname, hpart, hdeclared, huri, rfl, hattributes⟩

/-! ## The tree of elements -/

theorem build_eq_ok_iff {node : Node} {found : Element × Nat} :
    Element.build scope outer next node = .ok found ↔
      ∃ head children, buildHead node (node.declarations ++ scope) outer next = .ok head ∧
        Element.buildAll (node.declarations ++ scope) head.frames head.next node.children =
          .ok (children, found.2) ∧
        found.1 = ⟨head.name, head.shownPrefix, head.frames.headD [], head.attributes,
          node.text.map safe, children⟩ := by
  obtain ⟨name, index, text, attributes, children⟩ := node
  rw [Element.build, bind_eq_ok_iff]
  refine exists_congr fun head => ?_
  constructor
  · rintro ⟨hhead, hok⟩
    obtain ⟨⟨below, number⟩, hbelow, hfound⟩ := bind_eq_ok_iff.mp hok
    obtain rfl := Except.ok.inj hfound
    exact ⟨below, hhead, hbelow, rfl⟩
  · rintro ⟨below, hhead, hbelow, hfound⟩
    refine ⟨hhead, bind_eq_ok_iff.mpr ⟨_, hbelow, ?_⟩⟩
    exact congrArg Except.ok (Prod.ext hfound.symm rfl)

theorem buildAll_cons_eq_ok_iff {node : Node} {rest : List Node} {found : List Element × Nat} :
    Element.buildAll scope outer next (node :: rest) = .ok found ↔
      ∃ first number others, Element.build scope outer next node = .ok (first, number) ∧
        Element.buildAll scope outer number rest = .ok (others, found.2) ∧
        found.1 = first :: others := by
  rw [Element.buildAll, bind_eq_ok_iff]
  constructor
  · rintro ⟨⟨first, number⟩, hfirst, hok⟩
    obtain ⟨⟨others, after⟩, hothers, hfound⟩ := bind_eq_ok_iff.mp hok
    obtain rfl := Except.ok.inj hfound
    exact ⟨first, number, others, hfirst, hothers, rfl⟩
  · rintro ⟨first, number, others, hfirst, hothers, hfound⟩
    refine ⟨_, hfirst, bind_eq_ok_iff.mpr ⟨_, hothers, ?_⟩⟩
    exact congrArg Except.ok (Prod.ext hfound.symm rfl)

mutual

/-- All nodes of the tree have heads that can be written below the declarations around them. -/
def Buildable (scope : List Declaration) : Node → Prop
  | ⟨name, index, text, attributes, children⟩ =>
    let node : Node := ⟨name, index, text, attributes, []⟩
    HasHead (node.declarations ++ scope) node ∧ AllBuildable (node.declarations ++ scope) children

/-- Some trees can all be built below the declarations of `scope`. -/
def AllBuildable (scope : List Declaration) : List Node → Prop
  | [] => True
  | node :: rest => Buildable scope node ∧ AllBuildable scope rest

end

mutual

/-- An element can be built exactly from a buildable tree. -/
theorem succeeds_build {scope : List Declaration} {outer : Frames} {next : Nat} (node : Node) :
    Succeeds (Element.build scope outer next node) ↔ Buildable scope node := by
  cases node with
  | mk name index text attributes children =>
      rw [Buildable]
      constructor
      · rintro ⟨found, hfound⟩
        obtain ⟨head, below, hhead, hbelow, -⟩ := build_eq_ok_iff.mp hfound
        obtain ⟨hname, hdeclarations, hattributes⟩ := succeeds_buildHead.mp ⟨head, hhead⟩
        exact ⟨⟨hname, hdeclarations, hattributes⟩, (succeeds_buildAll children).mp ⟨_, hbelow⟩⟩
      · rintro ⟨⟨hname, hdeclarations, hattributes⟩, hbelow⟩
        obtain ⟨head, hhead⟩ := succeeds_buildHead.mpr ⟨hname, hdeclarations, hattributes⟩
        obtain ⟨⟨below, number⟩, hbelow⟩ := (succeeds_buildAll children).mpr hbelow
        exact ⟨(_, _), build_eq_ok_iff.mpr ⟨head, below, hhead, hbelow, rfl⟩⟩

theorem succeeds_buildAll {scope : List Declaration} {outer : Frames} {next : Nat}
    (nodes : List Node) :
    Succeeds (Element.buildAll scope outer next nodes) ↔ AllBuildable scope nodes := by
  cases nodes with
  | nil => simp [Element.buildAll, AllBuildable]
  | cons node rest =>
      rw [AllBuildable]
      constructor
      · rintro ⟨found, hfound⟩
        obtain ⟨first, number, others, hfirst, hothers, -⟩ := buildAll_cons_eq_ok_iff.mp hfound
        exact ⟨(succeeds_build node).mp ⟨_, hfirst⟩, (succeeds_buildAll rest).mp ⟨_, hothers⟩⟩
      · rintro ⟨hfirst, hothers⟩
        obtain ⟨⟨first, number⟩, hfirst⟩ := (succeeds_build node).mpr hfirst
        obtain ⟨⟨others, after⟩, hothers⟩ := (succeeds_buildAll rest).mpr hothers
        exact ⟨(_, _), buildAll_cons_eq_ok_iff.mpr ⟨first, number, others, hfirst, hothers, rfl⟩⟩

end

/-! ## Documents that declare all namespaces at the root -/

mutual

theorem buildable_of_forall {scope : List Declaration} (node : Node)
    (h : ∀ inner ∈ node.nodes, inner.declarations = [] ∧ HasHead scope inner) :
    Buildable scope node := by
  cases node with
  | mk name index text attributes children =>
      rw [Node.nodes, List.forall_mem_cons] at h
      obtain ⟨⟨hdeclarations, hname, hdeclared, hattributes⟩, hbelow⟩ := h
      have hscope : (⟨name, index, text, attributes, []⟩ : Node).declarations ++ scope = scope :=
        congrArg (· ++ scope) hdeclarations
      simp only [Buildable, hscope]
      exact ⟨⟨hname, hdeclared, hattributes⟩, allBuildable_of_forall children hbelow⟩

theorem allBuildable_of_forall {scope : List Declaration} (nodes : List Node)
    (h : ∀ inner ∈ Node.nodesOfAll nodes, inner.declarations = [] ∧ HasHead scope inner) :
    AllBuildable scope nodes := by
  cases nodes with
  | nil => trivial
  | cons node rest =>
      rw [Node.nodesOfAll, List.forall_mem_append] at h
      exact ⟨buildable_of_forall node h.1, allBuildable_of_forall rest h.2⟩

end

/-- The declarations of the root are in scope everywhere if no other node declares anything. -/
theorem succeeds_ofNode {root : Node} (hroot : HasHead root.declarations root)
    (hbelow : ∀ child ∈ root.children, ∀ node ∈ child.nodes,
      node.declarations = [] ∧ HasHead root.declarations node) :
    Succeeds (Element.ofNode root) := by
  rw [Element.ofNode, succeeds_map, succeeds_build]
  obtain ⟨name, index, text, attributes, children⟩ := root
  obtain ⟨hname, hdeclarations, hattributes⟩ := hroot
  simp only [Buildable, List.append_nil]
  refine ⟨⟨hname, hdeclarations, hattributes⟩, allBuildable_of_forall children ?_⟩
  rw [Node.nodesOfAll_eq_flatMap, List.forall_mem_flatMap]
  exact hbelow

/-! ## Texts -/

namespace Element

mutual

/-- The attribute values and the texts of an element and of all elements below it. -/
def texts : Element → List String
  | ⟨_, _, _, attributes, text, children⟩ =>
    attributes.map Attribute.value ++ text.toList ++ textsOfAll children

/-- The attribute values and the texts of some elements and of all elements below them. -/
def textsOfAll : List Element → List String
  | [] => []
  | element :: rest => element.texts ++ textsOfAll rest

end

end Element

theorem isText_setAttribute (new : Attribute) {attributes : List Attribute}
    (hnew : isText new.value = true) (hold : ∀ old ∈ attributes, isText old.value = true) :
    ∀ attr ∈ setAttribute new attributes, isText attr.value = true := by
  induction attributes with
  | nil => simpa [setAttribute] using hnew
  | cons old rest ih =>
      obtain ⟨hfirst, hrest⟩ := List.forall_mem_cons.mp hold
      rw [setAttribute]
      split
      · exact List.forall_mem_cons.mpr ⟨hnew, hrest⟩
      · exact List.forall_mem_cons.mpr ⟨hfirst, ih hrest⟩

theorem isText_of_buildAttributes {entries : List (String × String)} {done : List Attribute}
    {found : List Attribute × Frames × Nat} (hdone : ∀ old ∈ done, isText old.value = true)
    (hok : buildAttributes scope entries done frames next = .ok found) :
    ∀ attr ∈ found.1, isText attr.value = true := by
  induction entries generalizing done frames next with
  | nil =>
      obtain rfl := Except.ok.inj hok
      exact hdone
  | cons entry rest ih =>
      obtain ⟨key, value⟩ := entry
      obtain ⟨name, -, -, hrest⟩ := buildAttributes_cons_eq_ok_iff.mp hok
      have hset := isText_setAttribute ⟨name, (shownIn true name frames next).1, safe value⟩
        (safe_isText value) hdone
      exact ih hset hrest

mutual

/-- Whatever the values of a document are, its element has only texts that XML can carry. -/
theorem isText_of_build {scope : List Declaration} {outer : Frames} {next : Nat} (node : Node)
    {found : Element × Nat} (hok : Element.build scope outer next node = .ok found) :
    ∀ text ∈ found.1.texts, isText text = true := by
  cases node with
  | mk name index text attributes children =>
      obtain ⟨head, below, hhead, hbelow, hfound⟩ := build_eq_ok_iff.mp hok
      obtain ⟨declared, -, -, -, -, -, hattributes⟩ := buildHead_eq_ok_iff.mp hhead
      rw [hfound, Element.texts, List.forall_mem_append, List.forall_mem_append]
      have hvalues : ∀ attr ∈ head.attributes, isText attr.value = true :=
        isText_of_buildAttributes (by simp) hattributes
      refine ⟨⟨List.forall_mem_map.mpr hvalues, ?_⟩, isText_of_buildAll children hbelow⟩
      cases text with
      | none => simp
      | some text => simpa using safe_isText text

theorem isText_of_buildAll {scope : List Declaration} {outer : Frames} {next : Nat}
    (nodes : List Node) {found : List Element × Nat}
    (hok : Element.buildAll scope outer next nodes = .ok found) :
    ∀ text ∈ Element.textsOfAll found.1, isText text = true := by
  cases nodes with
  | nil =>
      obtain rfl := Except.ok.inj hok
      simp [Element.textsOfAll]
  | cons node rest =>
      obtain ⟨first, number, others, hfirst, hothers, hfound⟩ := buildAll_cons_eq_ok_iff.mp hok
      rw [hfound, Element.textsOfAll, List.forall_mem_append]
      exact ⟨isText_of_build node hfirst, isText_of_buildAll rest hothers⟩

end

theorem isText_of_ofNode {root : Node} {element : Element}
    (hok : Element.ofNode root = .ok element) : ∀ text ∈ element.texts, isText text = true := by
  obtain ⟨found, hfound, rfl⟩ := map_eq_ok_iff.mp hok
  exact isText_of_build root hfound

end Xml

end GeoMetadata
