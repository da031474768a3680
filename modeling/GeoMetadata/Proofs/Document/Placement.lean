import GeoMetadata.Document.Assembly
import GeoMetadata.Proofs.OrderedMap
import GeoMetadata.Proofs.Outcome

/-!
# The shape of an assembled document

Assembly writes values one after the other into a tree that grows on the way.  This file says
what the tree is in the end, in terms of the values and places alone:

* the children of a node are the heads of the places below it, in the order in which they first
  occur (`childKeys`);
* what stands below a child are the placements that lead through it, without their first
  segment (`below`);
* the attributes are those of the places that end in one, and the text is the last that is
  placed at the node itself.

`place_leaf` is the equation that says so.  The children are again nodes that placements were
written into, so that a property of all nodes of a document is proved from the placements by
going down (`forall_mem_nodes_place`).
-/

namespace GeoMetadata

namespace Document

/-- A value and the segments that lead from a node to its place. -/
abbrev Placement := List Segment × String

/-- The node once some values are written, in order. -/
def place (placements : List Placement) (node : Node) : Node :=
  placements.foldl (fun node placement => assign placement.2 placement.1 node) node

/-- The child of the node that a place lies in: its name and index. -/
def childKey? : List Segment → Option (String × Nat)
  | .element name index :: _ => some (name, index)
  | _ => none

/-- The children that some placements lead through, in the order of the first of each. -/
def childKeys (placements : List Placement) : List (String × Nat) :=
  (placements.filterMap fun placement => childKey? placement.1).eraseDups

/-- The placement as seen from a child, if it leads through it. -/
def throughChild? (key : String × Nat) : Placement → Option Placement
  | (.element name index :: rest, value) =>
    if (name, index) = key then some (rest, value) else none
  | _ => none

/-- The placements that lead through a child, as seen from it. -/
def below (key : String × Nat) (placements : List Placement) : List Placement :=
  placements.filterMap (throughChild? key)

/-- The attribute of the node that a placement sets. -/
def ownAttribute? : Placement → Option (String × String)
  | (.attr name :: _, value) => some (name, value)
  | _ => none

/-- The text of the node that a placement sets. -/
def ownText? : Placement → Option String
  | ([], value) => some value
  | _ => none

theorem nodup_childKeys (placements : List Placement) : (childKeys placements).Nodup :=
  nodup_eraseDups _

theorem mem_childKeys {placements : List Placement} {key : String × Nat} :
    key ∈ childKeys placements ↔ ∃ placement ∈ placements, childKey? placement.1 = some key := by
  rw [childKeys, List.mem_eraseDups, List.mem_filterMap]

theorem mem_below {placements : List Placement} {key : String × Nat} {rest : List Segment}
    {value : String} :
    (rest, value) ∈ below key placements ↔
      (.element key.1 key.2 :: rest, value) ∈ placements := by
  rw [below, List.mem_filterMap]
  constructor
  · rintro ⟨⟨segments, other⟩, hmem, hthrough⟩
    unfold throughChild? at hthrough
    split at hthrough
    · rename_i name index tail value' heq
      obtain ⟨rfl, rfl⟩ := Prod.mk.inj heq
      split at hthrough
      · rename_i hkey
        subst hkey
        simp only [Option.some.injEq, Prod.mk.injEq] at hthrough
        obtain ⟨rfl, rfl⟩ := hthrough
        exact hmem
      · simp at hthrough
    · simp at hthrough
  · intro hmem
    exact ⟨_, hmem, by simp [throughChild?]⟩

/-! ## The shape of the tree -/

theorem answersTo_iff {node : Node} {name : String} {index : Int} :
    node.answersTo name index = true ↔ node.name = name ∧ node.index = index := by
  simp [Node.answersTo]

@[simp] theorem name_assign (value : String) (segments : List Segment) (node : Node) :
    (assign value segments node).name = node.name := by
  unfold assign
  split <;> rfl

@[simp] theorem index_assign (value : String) (segments : List Segment) (node : Node) :
    (assign value segments node).index = node.index := by
  unfold assign
  split <;> rfl

theorem place_concat (placements : List Placement) (last : Placement) (node : Node) :
    place (placements ++ [last]) node = assign last.2 last.1 (place placements node) := by
  simp [place]

@[simp] theorem name_place (placements : List Placement) (node : Node) :
    (place placements node).name = node.name := by
  induction placements using List.reverseRecOn with
  | nil => rfl
  | append_singleton placements last ih => rw [place_concat, name_assign, ih]

@[simp] theorem index_place (placements : List Placement) (node : Node) :
    (place placements node).index = node.index := by
  induction placements using List.reverseRecOn with
  | nil => rfl
  | append_singleton placements last ih => rw [place_concat, index_assign, ih]

/-- The child that placements make of a new node. -/
def childOf (placements : List Placement) (key : String × Nat) : Node :=
  place (below key placements) (.leaf key.1 key.2)

/-- Changing the first node of a name and index, where different nodes have different ones. -/
theorem changeFirst_map {keys : List (String × Nat)} {node : String × Nat → Node}
    {change : Node → Node} {key : String × Nat} (hnodup : keys.Nodup)
    (hname : ∀ key ∈ keys, (node key).name = key.1)
    (hindex : ∀ key ∈ keys, (node key).index = key.2) :
    Node.changeFirst key.1 key.2 change (keys.map node) =
      if key ∈ keys then keys.map fun other => if other = key then change (node other) else node other
      else keys.map node ++ [change (.leaf key.1 key.2)] := by
  induction keys with
  | nil => rfl
  | cons first rest ih =>
      obtain ⟨hfresh, hrest⟩ := List.nodup_cons.mp hnodup
      obtain ⟨hname₁, hname₂⟩ := List.forall_mem_cons.mp hname
      obtain ⟨hindex₁, hindex₂⟩ := List.forall_mem_cons.mp hindex
      rw [List.map_cons, Node.changeFirst]
      by_cases hfirst : first = key
      · subst hfirst
        have hanswer : (node first).answersTo first.1 first.2 = true :=
          answersTo_iff.mpr ⟨hname₁, hindex₁⟩
        have hothers : rest.map (fun other => if other = first then change (node other)
            else node other) = rest.map node :=
          List.map_congr_left fun other hother => if_neg fun (h : other = first) => hfresh (h ▸ hother)
        rw [if_pos hanswer, if_pos List.mem_cons_self, List.map_cons, if_pos rfl, hothers]
      · have hanswer : ¬ (node first).answersTo key.1 key.2 = true := by
          rw [answersTo_iff, hname₁, hindex₁]
          rintro ⟨hn, hi⟩
          exact hfirst (Prod.ext hn (Int.ofNat.inj hi))
        rw [if_neg hanswer, ih hrest hname₂ hindex₂]
        by_cases hmem : key ∈ rest
        · rw [if_pos hmem, if_pos (List.mem_cons_of_mem _ hmem), List.map_cons, if_neg hfirst]
        · have hnot : key ∉ first :: rest :=
            List.not_mem_cons_of_ne_of_not_mem (Ne.symm hfirst) hmem
          rw [if_neg hmem, if_neg hnot, List.cons_append]

theorem childKeys_concat_of_none {placements : List Placement} (last : Placement)
    (hlast : childKey? last.1 = none) : childKeys (placements ++ [last]) = childKeys placements := by
  rw [childKeys, filterMap_concat, hlast, Option.toList_none, List.append_nil, childKeys]

theorem childKeys_concat_of_some {placements : List Placement} {last : Placement}
    {key : String × Nat} (hlast : childKey? last.1 = some key) :
    childKeys (placements ++ [last]) =
      if key ∈ childKeys placements then childKeys placements else childKeys placements ++ [key] := by
  rw [childKeys, filterMap_concat, hlast, Option.toList_some, eraseDups_concat]
  simp only [← List.mem_eraseDups (l := placements.filterMap _)]
  rfl

theorem below_concat (key : String × Nat) (placements : List Placement) (last : Placement) :
    below key (placements ++ [last]) = below key placements ++ (throughChild? key last).toList :=
  filterMap_concat _ _ _

/-- What lies below a child is empty if nothing leads through it. -/
theorem below_eq_nil {placements : List Placement} {key : String × Nat}
    (hkey : key ∉ childKeys placements) : below key placements = [] := by
  refine List.eq_nil_iff_forall_not_mem.mpr fun ⟨rest, value⟩ hmem => hkey ?_
  exact mem_childKeys.mpr ⟨_, mem_below.mp hmem, rfl⟩

theorem childOf_concat_of_none {placements : List Placement} {last : Placement}
    {key : String × Nat} (hlast : throughChild? key last = none) :
    childOf (placements ++ [last]) key = childOf placements key := by
  rw [childOf, below_concat, hlast, Option.toList_none, List.append_nil, childOf]

theorem childOf_concat_of_some {placements : List Placement} {last rest : Placement}
    {key : String × Nat} (hlast : throughChild? key last = some rest) :
    childOf (placements ++ [last]) key = assign rest.2 rest.1 (childOf placements key) := by
  rw [childOf, below_concat, hlast, Option.toList_some, place_concat, childOf]

theorem childKeys_map_childOf_concat {placements : List Placement} {name : String} {index : Nat}
    {rest : List Segment} {value : String} :
    (childKeys (placements ++ [(.element name index :: rest, value)])).map
        (childOf (placements ++ [(.element name index :: rest, value)])) =
      Node.changeFirst name index (assign value rest)
        ((childKeys placements).map (childOf placements)) := by
  have hsame : throughChild? (name, index) (.element name index :: rest, value) =
      some (rest, value) := by simp [throughChild?]
  have hother {key : String × Nat} (hkey : ¬ key = (name, index)) :
      throughChild? key (.element name index :: rest, value) = none := by
    simp [throughChild?, Ne.symm hkey]
  have hkeys : childKeys (placements ++ [(.element name index :: rest, value)]) =
      if (name, index) ∈ childKeys placements then childKeys placements
      else childKeys placements ++ [(name, index)] := childKeys_concat_of_some rfl
  have hchange := @changeFirst_map (childKeys placements) (childOf placements)
    (assign value rest) (name, index) (nodup_childKeys placements)
    (fun key _ => name_place _ _) (fun key _ => index_place _ _)
  rw [hkeys]
  refine Eq.trans ?_ hchange.symm
  by_cases hmem : (name, index) ∈ childKeys placements
  · rw [if_pos hmem, if_pos hmem]
    refine List.map_congr_left fun key _ => ?_
    by_cases hkey : key = (name, index)
    · rw [if_pos hkey, hkey, childOf_concat_of_some hsame]
    · rw [if_neg hkey, childOf_concat_of_none (hother hkey)]
  · -- A child that is new has nothing below it yet, so that it starts out as a leaf.
    rw [if_neg hmem, if_neg hmem, List.map_append, List.map_singleton, childOf_concat_of_some hsame]
    have hothers : (childKeys placements).map
        (childOf (placements ++ [(.element name index :: rest, value)])) =
        (childKeys placements).map (childOf placements) :=
      List.map_congr_left fun key hkey =>
        childOf_concat_of_none (hother fun (h : key = (name, index)) => hmem (h ▸ hkey))
    rw [hothers, childOf, below_eq_nil hmem]
    rfl

/-- What placements make of a new node: the text, the attributes and the children each come from
their own placements. -/
theorem place_leaf (placements : List Placement) (name : String) (index : Int) :
    place placements (.leaf name index) =
      { name := name
        index := index
        text := (placements.filterMap ownText?).getLast?
        attributes := .ofList (placements.filterMap ownAttribute?)
        children := (childKeys placements).map (childOf placements) } := by
  induction placements using List.reverseRecOn with
  | nil => rfl
  | append_singleton placements last ih =>
      obtain ⟨segments, value⟩ := last
      rw [place_concat, ih, filterMap_concat, filterMap_concat]
      -- The last placement sets the text, goes below a child or sets an attribute.
      rcases segments with _ | ⟨⟨childName, childIndex⟩ | attrName, rest⟩
      · have hchildren : (childKeys placements).map (childOf (placements ++ [([], value)])) =
            (childKeys placements).map (childOf placements) :=
          List.map_congr_left fun key _ => childOf_concat_of_none rfl
        rw [childKeys_concat_of_none ([], value) rfl, hchildren]
        simp [assign, Node.withText, ownText?, ownAttribute?]
      · rw [childKeys_map_childOf_concat]
        simp [assign, Node.changeChild, ownText?, ownAttribute?]
      · have hchildren : (childKeys placements).map
            (childOf (placements ++ [(.attr attrName :: rest, value)])) =
            (childKeys placements).map (childOf placements) :=
          List.map_congr_left fun key _ => childOf_concat_of_none rfl
        rw [childKeys_concat_of_none (.attr attrName :: rest, value) rfl, hchildren]
        simp [assign, Node.withAttribute, ownText?, ownAttribute?, OrderedMap.ofList,
          OrderedMap.insertMany_append]

/-! ## All nodes of a document -/

end Document

namespace Node

mutual

/-- The node and all nodes below it, each before its children. -/
def nodes : Node → List Node
  | ⟨name, index, text, attributes, children⟩ =>
    ⟨name, index, text, attributes, children⟩ :: nodesOfAll children

/-- Some nodes and all nodes below them. -/
def nodesOfAll : List Node → List Node
  | [] => []
  | node :: rest => node.nodes ++ nodesOfAll rest

end

theorem nodesOfAll_eq_flatMap (all : List Node) : nodesOfAll all = all.flatMap nodes := by
  induction all with
  | nil => rfl
  | cons node rest ih => rw [nodesOfAll, ih, List.flatMap_cons]

theorem nodes_eq_cons (node : Node) : node.nodes = node :: node.children.flatMap nodes := by
  obtain ⟨name, index, text, attributes, children⟩ := node
  rw [nodes, nodesOfAll_eq_flatMap]

end Node

namespace Document

/-- A property holds of all nodes that placements make of a new node, if it holds of the top for
placements of some kind and what lies below a child is of that kind too. The induction is on a
bound on the lengths of the places. -/
theorem forall_mem_nodes_place (Kind : String → List Placement → Prop) {P : Node → Prop}
    (hbelow : ∀ {name placements key}, Kind name placements → key ∈ childKeys placements →
      Kind key.1 (below key placements))
    (htop : ∀ {name index placements}, Kind name placements → P (place placements (.leaf name index)))
    {name : String} {index : Int} {placements : List Placement} (hkind : Kind name placements) :
    ∀ node ∈ (place placements (.leaf name index)).nodes, P node := by
  -- `below` takes the first segment off each place, so that the bound goes down by one.
  -- There is no induction on the tree: the kind of a child is known of its placements only.
  obtain ⟨depth, hdepth⟩ : ∃ depth, ∀ placement ∈ placements, placement.1.length ≤ depth := by
    refine ⟨(placements.map fun placement => placement.1.length).max?.getD 0, fun _ hmem => ?_⟩
    exact List.le_max?_getD_of_mem
      (List.mem_map_of_mem (f := fun placement : Placement => placement.1.length) hmem)
  induction depth generalizing name index placements with
  | zero =>
      -- All places are empty, and none leads through a child.
      have hnone : childKeys placements = [] := by
        refine List.eq_nil_iff_forall_not_mem.mpr fun key hkey => ?_
        obtain ⟨⟨segments, value⟩, hmem, hhead⟩ := mem_childKeys.mp hkey
        have hnil : segments = [] := List.length_eq_zero_iff.mp (Nat.le_zero.mp (hdepth _ hmem))
        rw [hnil] at hhead
        nomatch hhead
      intro node hnode
      rw [Node.nodes_eq_cons, List.mem_cons] at hnode
      rcases hnode with rfl | hnode
      · exact htop hkind
      · rw [place_leaf, hnone] at hnode
        simp at hnode
  | succ depth ih =>
      intro node hnode
      rw [Node.nodes_eq_cons, List.mem_cons] at hnode
      rcases hnode with rfl | hnode
      · exact htop hkind
      · obtain ⟨child, hchild, hnode⟩ := List.mem_flatMap.mp hnode
        rw [place_leaf] at hchild
        obtain ⟨key, hkey, rfl⟩ := List.mem_map.mp hchild
        refine ih (hbelow hkind hkey) (fun ⟨rest, value⟩ hmem => ?_) node hnode
        have hlength := hdepth _ (mem_below.mp hmem)
        exact Nat.le_of_succ_le_succ hlength

end Document

end GeoMetadata
