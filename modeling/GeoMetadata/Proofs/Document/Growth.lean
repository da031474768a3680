import GeoMetadata.Proofs.Document.Placement
import Mathlib.Data.List.Infix
import Mathlib.Data.List.Nodup
import Mathlib.Logic.Relation

/-!
# Trees that grow by operations on their nodes

A tree starts as a single node and grows by operations on any of its nodes: a child is asked for by
name and index, or looked up, or an attribute or a text is set.  The nodes are told apart by the
positions of the children on the way to them (`Route`), which asks nothing of names and indices.  An
operation leaves all nodes where they are, and all but the one it is called on as they are
(`KeepsOthers`), so that a route leads to one node for good.

A child that is asked for comes last if there was none of its name and index.  So no two children of
a node ever share them (`Reachable.distinct`), which nothing but the operations sees to.  That makes
a name and an index address one child, which is found ever after (`FindsOrAppends`), and it makes an
address lead where a route leads (`exists_address`).

What an operation does to its own node is said first, by the kinds of operations
(`Operation.apply`). What it does to the tree is said from there down the route to the node: each
step changes one child and passes by the others, which keep their names and indices in any case
(`map_key_modify`).  What holds of every tree that has grown follows by induction on the operations,
the last one being called on a node of a tree for which it is known.
-/

namespace GeoMetadata.Node

open Relation (ReflTransGen)
open Document (answersTo_iff)

variable {tree grown node child : Node} {root name : String} {index : Int} {position : Nat}

/-! ## Operations -/

/-- What can be asked of a node. -/
inductive Operation where
  | child (name : String) (index : Int)
  | findChild (name : String) (index : Int)
  | setAttribute (name value : String)
  | setText (text : String)

/-- The position of the first child with this name and index. -/
def childPosition? (node : Node) (name : String) (index : Int) : Option Nat :=
  node.children.findIdx? (·.answersTo name index)

/-- The positions of the children that lead from a node to one below it. -/
abbrev Route := List Nat

namespace Operation

/-- The node after an operation on it. -/
def apply : Operation → Node → Node
  | .child name index, node => node.withChild name index
  | .findChild _ _, node => node
  | .setAttribute name value, node => node.withAttribute name value
  | .setText text, node => node.withText text

/-- The route from a node to the one that an operation on it gives: a child, which is a new last one
if it was asked for and not there, or the node itself. -/
def result? : Operation → Node → Option Route
  | .child name index, node => some [(node.childPosition? name index).getD node.children.length]
  | .findChild name index, node => (node.childPosition? name index).map fun position => [position]
  | .setAttribute _ _, _ => some []
  | .setText _, _ => some []

end Operation

/-- The node at the end of a route. -/
def along? : Route → Node → Option Node
  | [], node => some node
  | position :: rest, node => (node.children[position]?).bind (along? rest)

/-- The tree after an operation on the node at the end of a route. -/
def operate (op : Operation) : Route → Node → Node
  | [], node => op.apply node
  | position :: rest, node =>
    { node with children := node.children.modify position (operate op rest) }

/-- The tree becomes the other by an operation on one of its nodes. -/
def Grows (tree grown : Node) : Prop :=
  ∃ route node op, tree.along? route = some node ∧ grown = tree.operate op route

/-- The tree has grown from a single node of this name. -/
def Reachable (root : String) (tree : Node) : Prop := ReflTransGen Grows (.leaf root 1) tree

/-! ## The node that an operation is called on

That its children are distinct is what an operation keeps and what it needs: it keeps it because
only a name and an index that are not there are appended. -/

/-- The name and the index of a node. -/
def key (node : Node) : String × Int := (node.name, node.index)

/-- No two children share name and index. -/
def HasDistinctChildren (node : Node) : Prop := (node.children.map key).Nodup

theorem answersTo_iff_key : child.answersTo name index = true ↔ child.key = (name, index) := by
  rw [answersTo_iff, key, Prod.mk.injEq]

/-- A child that is there is left as it is. -/
theorem changeFirst_id_of_mem {nodes : List Node} (h : (name, index) ∈ nodes.map key) :
    changeFirst name index id nodes = nodes := by
  induction nodes with
  | nil => cases h
  | cons first rest ih =>
      rw [changeFirst]
      split
      · rfl
      · rename_i hother
        rw [answersTo_iff_key] at hother
        rw [List.map_cons, List.mem_cons] at h
        rw [ih (h.resolve_left (Ne.symm hother))]

/-- A child that is not there comes last. -/
theorem changeFirst_id_of_not_mem {nodes : List Node} (h : (name, index) ∉ nodes.map key) :
    changeFirst name index id nodes = nodes ++ [leaf name index] := by
  induction nodes with
  | nil => rfl
  | cons first rest ih =>
      rw [List.map_cons, List.mem_cons, not_or] at h
      rw [changeFirst, if_neg (answersTo_iff_key.not.mpr (Ne.symm h.1)), ih h.2, List.cons_append]

theorem withChild_of_mem (h : (name, index) ∈ node.children.map key) :
    node.withChild name index = node := by
  obtain ⟨own, number, text, attributes, children⟩ := node
  rw [withChild, changeChild, changeFirst_id_of_mem h]

theorem withChild_of_not_mem (h : (name, index) ∉ node.children.map key) :
    node.withChild name index = { node with children := node.children ++ [leaf name index] } := by
  rw [withChild, changeChild, changeFirst_id_of_not_mem h]

@[simp] theorem key_apply (op : Operation) (node : Node) : (op.apply node).key = node.key := by
  cases op <;> rfl

theorem children_prefix_apply (op : Operation) (node : Node) :
    node.children <+: (op.apply node).children := by
  cases op with
  | child name index =>
      by_cases hmem : (name, index) ∈ node.children.map key
      · rw [Operation.apply, withChild_of_mem hmem]
      · rw [Operation.apply, withChild_of_not_mem hmem]
        exact List.prefix_append _ _
  | findChild | setAttribute | setText => exact List.prefix_refl _

theorem keys_prefix_apply (op : Operation) (node : Node) :
    node.attributes.keys <+: (op.apply node).attributes.keys := by
  cases op with
  | setAttribute name value =>
      show _ <+: (node.attributes.insert name value).keys
      rw [OrderedMap.keys_insert]
      split
      · exact List.prefix_refl _
      · exact List.prefix_append _ _
  | child | findChild | setText => exact List.prefix_refl _

theorem get?_apply {op : Operation} {attr : String} (hother : ∀ value, op ≠ .setAttribute attr value)
    (node : Node) : (op.apply node).attributes.get? attr = node.attributes.get? attr := by
  cases op with
  | setAttribute name value =>
      have hne : name ≠ attr := fun h => hother value (h ▸ rfl)
      show (node.attributes.insert name value).get? attr = _
      rw [OrderedMap.get?_insert, if_neg hne]
  | child | findChild | setText => rfl

/-- A child that is new has a name and an index that no other has. -/
theorem HasDistinctChildren.apply (h : node.HasDistinctChildren) (op : Operation) :
    (op.apply node).HasDistinctChildren := by
  cases op with
  | child name index =>
      by_cases hmem : (name, index) ∈ node.children.map key
      · rwa [Operation.apply, withChild_of_mem hmem]
      · rw [Operation.apply, withChild_of_not_mem hmem, HasDistinctChildren, List.map_append]
        exact h.append (List.nodup_singleton _) (List.disjoint_singleton.mpr hmem)
  | findChild | setAttribute | setText => exact h

/-- Of distinct children, the one with a name and an index is found wherever it stands. -/
theorem childPosition?_eq_some_iff (h : node.HasDistinctChildren) :
    node.childPosition? name index = some position ↔
      ∃ child, node.children[position]? = some child ∧ child.key = (name, index) := by
  rw [childPosition?, List.findIdx?_eq_some_iff_getElem]
  constructor
  · rintro ⟨hlt, hanswers, -⟩
    exact ⟨_, List.getElem?_eq_getElem hlt, answersTo_iff_key.mp hanswers⟩
  · rintro ⟨child, hchild, hkey⟩
    obtain ⟨hlt, rfl⟩ := List.getElem?_eq_some_iff.mp hchild
    refine ⟨hlt, answersTo_iff_key.mpr hkey, fun other hother hanswers => ?_⟩
    have hearlier : other < node.children.length := Nat.lt_trans hother hlt
    -- A second child of this name and index would stand at the same position.
    have hsame : (node.children.map key)[other]? = (node.children.map key)[position]? := by
      rw [List.getElem?_map, List.getElem?_map, hchild, List.getElem?_eq_getElem hearlier,
        Option.map_some, Option.map_some, answersTo_iff_key.mp hanswers, hkey]
    have hbound : other < (node.children.map key).length := by rwa [List.length_map]
    exact Nat.ne_of_lt hother ((List.getElem?_inj hbound h).mp hsame)

theorem childPosition?_eq_none_iff :
    node.childPosition? name index = none ↔ (name, index) ∉ node.children.map key := by
  rw [childPosition?, List.findIdx?_eq_none_iff]
  simp only [List.mem_map, not_exists, not_and, ← answersTo_iff_key, Bool.not_eq_true]

/-- What is looked up is the child at the position where it is found. -/
theorem findChild?_eq_bind (node : Node) (name : String) (index : Int) :
    node.findChild? name index =
      (node.childPosition? name index).bind fun position => node.children[position]? := by
  rw [findChild?, childPosition?]
  cases hfound : node.children.findIdx? (·.answersTo name index) with
  | none =>
      rw [List.findIdx?_eq_none_iff] at hfound
      exact List.find?_eq_none.mpr fun child hchild => by simp [hfound child hchild]
  | some position =>
      obtain ⟨hlt, hanswers, hfirst⟩ := List.findIdx?_eq_some_iff_getElem.mp hfound
      rw [Option.bind_some, List.getElem?_eq_getElem hlt, List.find?_eq_some_iff_getElem]
      exact ⟨hanswers, position, hlt, rfl, fun other hother => by simpa using hfirst other hother⟩

/-! ## The tree -/

@[simp] theorem key_operate (op : Operation) (route : Route) (tree : Node) :
    (tree.operate op route).key = tree.key := by
  cases route with
  | nil => exact key_apply op tree
  | cons position rest => rfl

/-- The children of a node keep their names and indices while something below one of them changes.
-/
theorem map_key_modify (op : Operation) (route : Route) (position : Nat) (nodes : List Node) :
    (nodes.modify position (operate op route)).map key = nodes.map key := by
  refine List.ext_getElem? fun other => ?_
  rw [List.getElem?_map, List.getElem?_map, List.getElem?_modify, Option.map_eq_map, Option.map_map]
  refine congrArg (Option.map · nodes[other]?) (funext fun child => ?_)
  rw [Function.comp_apply]
  split
  · exact key_operate op route child
  · rfl

theorem distinct_operate (h : ∀ node ∈ tree.nodes, node.HasDistinctChildren) (op : Operation)
    (route : Route) : ∀ node ∈ (tree.operate op route).nodes, node.HasDistinctChildren := by
  induction route generalizing tree with
  | nil =>
      rw [nodes_eq_cons, List.forall_mem_cons] at h
      obtain ⟨htop, hbelow⟩ := h
      rw [operate, nodes_eq_cons, List.forall_mem_cons]
      refine ⟨htop.apply op, ?_⟩
      cases op with
      | child name index =>
          by_cases hmem : (name, index) ∈ tree.children.map key
          · rwa [Operation.apply, withChild_of_mem hmem]
          · rw [Operation.apply, withChild_of_not_mem hmem]
            simp only [List.flatMap_append, List.forall_mem_append]
            refine ⟨hbelow, ?_⟩
            rw [List.flatMap_singleton, nodes_eq_cons, List.forall_mem_cons]
            exact ⟨List.nodup_nil, List.forall_mem_nil _⟩
      | findChild | setAttribute | setText => exact hbelow
  | cons position rest ih =>
      rw [nodes_eq_cons, List.forall_mem_cons] at h
      obtain ⟨htop, hbelow⟩ := h
      rw [List.forall_mem_flatMap] at hbelow
      rw [operate, nodes_eq_cons, List.forall_mem_cons, List.forall_mem_flatMap]
      constructor
      · rw [HasDistinctChildren, map_key_modify]
        exact htop
      · intro child hchild
        obtain ⟨other, hother⟩ := List.mem_iff_getElem?.mp hchild
        rw [List.getElem?_modify, Option.map_eq_map, Option.map_eq_some_iff] at hother
        obtain ⟨before, hbefore, rfl⟩ := hother
        have hdistinct := hbelow before (List.mem_of_getElem? hbefore)
        split
        · exact ih hdistinct
        · exact hdistinct

/-- In a tree that has grown from a single node, no two children of a node share name and index. -/
theorem Reachable.distinct (h : Reachable root tree) :
    ∀ node ∈ tree.nodes, node.HasDistinctChildren := by
  induction h with
  | refl =>
      rw [nodes_eq_cons, List.forall_mem_cons]
      exact ⟨List.nodup_nil, List.forall_mem_nil _⟩
  | tail _ hstep ih =>
      obtain ⟨route, node, op, -, rfl⟩ := hstep
      exact distinct_operate ih op route

/-! ## Routes

A route that leads somewhere leads there after every operation, since children are only appended. -/

section Routes

variable {route other : Route} {op : Operation}

theorem along?_append (first second : Route) (tree : Node) :
    tree.along? (first ++ second) = (tree.along? first).bind (along? second) := by
  induction first generalizing tree with
  | nil => rfl
  | cons position rest ih =>
      rw [List.cons_append, along?, along?]
      cases tree.children[position]? with
      | none => rfl
      | some child => exact ih child

theorem along?_concat (h : tree.along? route = some node) (position : Nat) :
    tree.along? (route ++ [position]) = node.children[position]? := by
  rw [along?_append, h, Option.bind_some, along?]
  cases node.children[position]? <;> rfl

theorem mem_nodes_of_along? (h : tree.along? route = some node) : node ∈ tree.nodes := by
  induction route generalizing tree with
  | nil =>
      obtain rfl := Option.some.inj h
      rw [nodes_eq_cons]
      exact List.mem_cons_self
  | cons position rest ih =>
      obtain ⟨child, hchild, hrest⟩ := Option.bind_eq_some_iff.mp h
      rw [nodes_eq_cons]
      exact List.mem_cons_of_mem _
        (List.mem_flatMap.mpr ⟨child, List.mem_of_getElem? hchild, ih hrest⟩)

theorem Reachable.distinct_along? (h : Reachable root tree) (hnode : tree.along? route = some node) :
    node.HasDistinctChildren :=
  h.distinct node (mem_nodes_of_along? hnode)

theorem getElem?_children_operate_cons (position : Nat) (rest : Route) (tree : Node) :
    (tree.operate op (position :: rest)).children[position]? =
      (tree.children[position]?).map (operate op rest) :=
  List.getElem?_modify_eq _ _ _

/-- The route still leads to the node that the operation was called on. -/
theorem along?_operate_self (h : tree.along? route = some node) (op : Operation) :
    (tree.operate op route).along? route = some (op.apply node) := by
  induction route generalizing tree with
  | nil =>
      obtain rfl := Option.some.inj h
      rfl
  | cons position rest ih =>
      obtain ⟨child, hchild, hrest⟩ := Option.bind_eq_some_iff.mp h
      rw [along?, getElem?_children_operate_cons, hchild]
      exact ih hrest

/-- An operation that leaves its node as it is leaves the tree as it is. -/
theorem operate_eq_self (h : tree.along? route = some node) (hsame : op.apply node = node) :
    tree.operate op route = tree := by
  induction route generalizing tree with
  | nil =>
      obtain rfl := Option.some.inj h
      exact hsame
  | cons position rest ih =>
      obtain ⟨child, hchild, hrest⟩ := Option.bind_eq_some_iff.mp h
      have hkept : tree.children.modify position (operate op rest) = tree.children := by
        refine List.ext_getElem? fun other => ?_
        by_cases hother : position = other
        · subst hother
          rw [List.getElem?_modify_eq, hchild, Option.map_eq_map, Option.map_some, ih hrest]
        · exact List.getElem?_modify_ne _ _ hother
      rw [operate, hkept]
      cases tree
      rfl

/-- The nodes differ at most in what stands below their children. -/
structure SameOwn (before after : Node) : Prop where
  name : after.name = before.name
  index : after.index = before.index
  text : after.text = before.text
  attributes : after.attributes = before.attributes
  children : after.children.length = before.children.length

theorem SameOwn.refl (node : Node) : node.SameOwn node := ⟨rfl, rfl, rfl, rfl, rfl⟩

theorem SameOwn.key_eq {before after : Node} (h : before.SameOwn after) : after.key = before.key :=
  Prod.ext h.name h.index

/-- Every other node stays where it is and as it is. -/
theorem exists_along?_operate {before : Node} (h : tree.along? other = some before)
    (hother : other ≠ route) (op : Operation) :
    ∃ after, (tree.operate op route).along? other = some after ∧ before.SameOwn after := by
  -- Down both routes until they part, or one of them ends.
  induction route generalizing tree other with
  | nil =>
      cases other with
      | nil => exact absurd rfl hother
      | cons position rest =>
          obtain ⟨child, hchild, hrest⟩ := Option.bind_eq_some_iff.mp h
          obtain ⟨hlt, rfl⟩ := List.getElem?_eq_some_iff.mp hchild
          have hkept := List.prefix_iff_getElem?.mp (children_prefix_apply op tree) position hlt
          refine ⟨before, ?_, .refl before⟩
          rw [operate, along?, hkept]
          exact hrest
  | cons position rest ih =>
      cases other with
      | nil =>
          obtain rfl := Option.some.inj h
          exact ⟨_, rfl, rfl, rfl, rfl, rfl, List.length_modify _ _ _⟩
      | cons first others =>
          obtain ⟨child, hchild, hrest⟩ := Option.bind_eq_some_iff.mp h
          by_cases hfirst : position = first
          · subst hfirst
            have hothers : others ≠ rest := fun hsame => hother (hsame ▸ rfl)
            obtain ⟨after, hafter, hsame⟩ := ih hrest hothers
            refine ⟨after, ?_, hsame⟩
            rw [along?, getElem?_children_operate_cons, hchild]
            exact hafter
          · have hkept : (tree.operate op (position :: rest)).children[first]? = some child :=
              (List.getElem?_modify_ne _ _ hfirst).trans hchild
            refine ⟨before, ?_, .refl before⟩
            rw [along?, hkept]
            exact hrest

/-- A route leads to a node of one name and index for good. -/
theorem exists_along?_of_grows (hgrows : ReflTransGen Grows tree grown)
    (h : tree.along? route = some node) :
    ∃ after, grown.along? route = some after ∧ after.key = node.key := by
  induction hgrows with
  | refl => exact ⟨node, h, rfl⟩
  | tail _ hstep ih =>
      obtain ⟨before, hbefore, hkey⟩ := ih
      obtain ⟨changed, own, op, hown, rfl⟩ := hstep
      by_cases hroute : route = changed
      · subst hroute
        exact ⟨_, along?_operate_self hbefore op, (key_apply op before).trans hkey⟩
      · obtain ⟨after, hafter, hsame⟩ := exists_along?_operate hbefore hroute op
        exact ⟨after, hafter, hsame.key_eq.trans hkey⟩

/-- Of distinct nodes, the first with a name and an index is the one at its position. -/
theorem changeFirst_eq_modify {nodes : List Node} {change other : Node → Node}
    (hdistinct : (nodes.map key).Nodup) (hchild : nodes[position]? = some child)
    (hchange : change child = other child) :
    changeFirst child.name child.index change nodes = nodes.modify position other := by
  induction nodes generalizing position with
  | nil => cases hchild
  | cons first rest ih =>
      rw [List.map_cons, List.nodup_cons] at hdistinct
      cases position with
      | zero =>
          obtain rfl := Option.some.inj hchild
          rw [changeFirst, if_pos (answersTo_iff.mpr ⟨rfl, rfl⟩), hchange, List.modify_zero_cons]
      | succ position =>
          rw [List.getElem?_cons_succ] at hchild
          have hother : first.key ≠ child.key := fun hsame =>
            hdistinct.1 (hsame ▸ List.mem_map_of_mem (List.mem_of_getElem? hchild))
          rw [changeFirst, if_neg (answersTo_iff_key.not.mpr hother), ih hdistinct.2 hchild,
            List.modify_succ_cons]

/-- Where the children of all nodes are distinct, a route goes along an address: what is found at
the address is what the route leads to, and a change at the address is an operation at the route. -/
theorem exists_address (hdistinct : ∀ node ∈ tree.nodes, node.HasDistinctChildren)
    (h : tree.along? route = some node) :
    ∃ address, tree.at? address = some node ∧
      ∀ op : Operation, tree.changeAt op.apply address = tree.operate op route := by
  -- Step by step, a position is exchanged for the name and the index of the child there.
  induction route generalizing tree with
  | nil => exact ⟨[], h, fun _ => rfl⟩
  | cons position rest ih =>
      rw [nodes_eq_cons, List.forall_mem_cons] at hdistinct
      obtain ⟨htop, hbelow⟩ := hdistinct
      rw [List.forall_mem_flatMap] at hbelow
      obtain ⟨child, hchild, hrest⟩ := Option.bind_eq_some_iff.mp h
      obtain ⟨address, hat, hchange⟩ := ih (hbelow child (List.mem_of_getElem? hchild)) hrest
      refine ⟨(child.name, child.index) :: address, ?_, fun op => ?_⟩
      · have hposition := (childPosition?_eq_some_iff htop).mpr ⟨child, hchild, rfl⟩
        rw [at?, findChild?_eq_bind, hposition, Option.bind_some, hchild]
        exact hat
      · rw [changeAt, changeChild, changeFirst_eq_modify htop hchild (hchange op), operate]

end Routes

/-! ## Grown trees -/

/-- What asking a node of a tree for a child does: a child of this name and index that is there is
the only one, and the tree stays as it is; otherwise one new child comes last.  The child that is
given is found ever after. -/
structure FindsOrAppends (tree : Node) (route : Route) (node : Node) (name : String) (index : Int) :
    Prop where
  existing : ∀ position child, node.children[position]? = some child →
    child.name = name ∧ child.index = index →
      (∀ other sibling, node.children[other]? = some sibling →
        sibling.name = name ∧ sibling.index = index → other = position) ∧
      (Operation.child name index).result? node = some [position] ∧
      tree.operate (.child name index) route = tree
  missing : (∀ child ∈ node.children, ¬(child.name = name ∧ child.index = index)) →
    (node.withChild name index).children = node.children ++ [leaf name index] ∧
      (Operation.child name index).result? node = some [node.children.length]
  found : ∀ later, ReflTransGen Grows (tree.operate (.child name index) route) later →
    ∃ grown position child, later.along? route = some grown ∧
      (Operation.child name index).result? node = some [position] ∧
      (Operation.findChild name index).result? grown = some [position] ∧
      grown.children[position]? = some child ∧ grown.findChild? name index = some child

/-- What an operation on a node of a tree leaves as it is: of the node itself its name and index,
its children and its attributes, to which others may be added, and of all other nodes everything. -/
structure KeepsOthers (tree : Node) (route : Route) (node : Node) (op : Operation) : Prop where
  own : (tree.operate op route).along? route = some (op.apply node)
  key : (op.apply node).name = node.name ∧ (op.apply node).index = node.index
  children : node.children <+: (op.apply node).children
  attributes : node.attributes.keys <+: (op.apply node).attributes.keys
  values : ∀ attr, (∀ value, op ≠ .setAttribute attr value) →
    (op.apply node).attributes.get? attr = node.attributes.get? attr
  others : ∀ other before, tree.along? other = some before → other ≠ route →
    ∃ after, (tree.operate op route).along? other = some after ∧ before.SameOwn after

section Grown

variable {route : Route}

theorem keepsOthers (h : tree.along? route = some node) (op : Operation) :
    KeepsOthers tree route node op where
  own := along?_operate_self h op
  key := Prod.mk.inj (key_apply op node)
  children := children_prefix_apply op node
  attributes := keys_prefix_apply op node
  values _ hother := get?_apply hother node
  others _ _ hbefore hother := exists_along?_operate hbefore hother op

/-- The child that is asked for stands at the position that is given. -/
theorem exists_child_apply (hdistinct : node.HasDistinctChildren) (name : String) (index : Int) :
    ∃ position child, (Operation.child name index).result? node = some [position] ∧
      (node.withChild name index).children[position]? = some child ∧ child.key = (name, index) := by
  by_cases hmem : (name, index) ∈ node.children.map key
  · rw [withChild_of_mem hmem]
    obtain ⟨position, hposition⟩ :=
      Option.ne_none_iff_exists'.mp (childPosition?_eq_none_iff.not.mpr (not_not_intro hmem))
    obtain ⟨child, hchild, hkey⟩ := (childPosition?_eq_some_iff hdistinct).mp hposition
    refine ⟨position, child, ?_, hchild, hkey⟩
    rw [Operation.result?, hposition, Option.getD_some]
  · rw [withChild_of_not_mem hmem]
    refine ⟨node.children.length, leaf name index, ?_, List.getElem?_concat_length, rfl⟩
    rw [Operation.result?, childPosition?_eq_none_iff.mpr hmem, Option.getD_none]

theorem Reachable.findsOrAppends (h : Reachable root tree) (hnode : tree.along? route = some node)
    (name : String) (index : Int) : FindsOrAppends tree route node name index := by
  have hdistinct := h.distinct_along? hnode
  constructor
  case existing =>
    rintro position child hchild ⟨hname, hindex⟩
    have hkey : child.key = (name, index) := Prod.ext hname hindex
    have hposition := (childPosition?_eq_some_iff hdistinct).mpr ⟨child, hchild, hkey⟩
    refine ⟨fun other sibling hsibling hsame => ?_, ?_, operate_eq_self hnode ?_⟩
    · have hother := (childPosition?_eq_some_iff hdistinct).mpr
        ⟨sibling, hsibling, Prod.ext hsame.1 hsame.2⟩
      exact Option.some.inj (hother.symm.trans hposition)
    · rw [Operation.result?, hposition, Option.getD_some]
    · exact withChild_of_mem (hkey ▸ List.mem_map_of_mem (List.mem_of_getElem? hchild))
  case missing =>
    intro hmissing
    have hfresh : (name, index) ∉ node.children.map key := by
      intro hmem
      obtain ⟨child, hchild, hkey⟩ := List.mem_map.mp hmem
      exact hmissing child hchild (Prod.mk.inj hkey)
    rw [withChild_of_not_mem hfresh, Operation.result?, childPosition?_eq_none_iff.mpr hfresh,
      Option.getD_none]
    exact ⟨rfl, rfl⟩
  case found =>
    intro later hlater
    have hreached : Reachable root later :=
      (h.tail ⟨route, node, .child name index, hnode, rfl⟩).trans hlater
    obtain ⟨position, child, hresult, hchild, hkey⟩ := exists_child_apply hdistinct name index
    have hown := along?_operate_self hnode (.child name index)
    obtain ⟨grown, hgrown, -⟩ := exists_along?_of_grows hlater hown
    -- The child is at the end of a route too, and so it stays at its position.
    obtain ⟨after, hafter, hsame⟩ :=
      exists_along?_of_grows hlater ((along?_concat hown position).trans hchild)
    rw [along?_concat hgrown] at hafter
    have hposition := (childPosition?_eq_some_iff (hreached.distinct_along? hgrown)).mpr
      ⟨after, hafter, hsame.trans hkey⟩
    refine ⟨grown, position, after, hgrown, hresult, ?_, hafter, ?_⟩
    · rw [Operation.result?, hposition, Option.map_some]
    · rw [findChild?_eq_bind, hposition, Option.bind_some, hafter]

end Grown

/-- Where a tree has grown from a single node by operations, no two children of a node share name
and index.  Asking a node for a child finds the one that there is or appends one, and it is found
from then on; an operation takes away nothing and changes no node but its own, which an address
leads to. -/
theorem children_stay_unique_and_in_place (h : Reachable root tree) :
    (∀ node ∈ tree.nodes, node.HasDistinctChildren) ∧
    ∀ route node, tree.along? route = some node →
      (∀ name index, FindsOrAppends tree route node name index) ∧
      (∀ op, KeepsOthers tree route node op) ∧
      ∃ address, tree.at? address = some node ∧
        ∀ op : Operation, tree.changeAt op.apply address = tree.operate op route := by
  refine ⟨h.distinct, fun route node hnode => ⟨h.findsOrAppends hnode, keepsOthers hnode, ?_⟩⟩
  exact exists_address h.distinct hnode

/-- A root with two children of one name, of which the first has a child and an attribute. -/
def sampleTree : Node :=
  ((((Node.leaf "root" 1).operate (.child "a" 1) []).operate (.child "a" 2) []).operate
    (.child "b" 1) [0]).operate (.setAttribute "x" "1") [0]

theorem reachable_sampleTree : Reachable "root" sampleTree := by
  refine .tail (.tail (.tail (.tail .refl ⟨[], _, .child "a" 1, rfl, rfl⟩)
    ⟨[], _, .child "a" 2, rfl, rfl⟩) ⟨[0], _, .child "b" 1, rfl, rfl⟩)
    ⟨[0], _, .setAttribute "x" "1", rfl, rfl⟩

/-- The second child is given when it is asked for again, and a third is appended to its parent. -/
theorem sample_children_stay_unique_and_in_place :
    Reachable "root" sampleTree ∧ sampleTree.operate (.child "a" 2) [] = sampleTree ∧
      (Operation.child "a" 2).result? sampleTree = some [1] ∧
      (sampleTree.withChild "a" 3).children = sampleTree.children ++ [leaf "a" 3] ∧
      (∀ node ∈ sampleTree.nodes, node.HasDistinctChildren) ∧
      ∃ address, sampleTree.at? address = some sampleTree := by
  obtain ⟨hdistinct, htree⟩ := children_stay_unique_and_in_place reachable_sampleTree
  obtain ⟨hasks, -, address, haddress, -⟩ := htree [] sampleTree rfl
  obtain ⟨-, hresult, hsame⟩ := (hasks "a" 2).existing 1 (leaf "a" 2) rfl ⟨rfl, rfl⟩
  have hkeys : sampleTree.children.map key = [("a", 1), ("a", 2)] := rfl
  have hmissing := (hasks "a" 3).missing fun child hchild hsame => by
    have hmem : child.key ∈ sampleTree.children.map key := List.mem_map_of_mem hchild
    rw [hkeys, key, hsame.1, hsame.2] at hmem
    exact absurd hmem (by decide)
  exact ⟨reachable_sampleTree, hsame, hresult, hmissing.1, hdistinct, address, haddress⟩

end GeoMetadata.Node
