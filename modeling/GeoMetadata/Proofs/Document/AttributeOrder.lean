import GeoMetadata.Proofs.Document.Numbering
import GeoMetadata.Proofs.Document.Order

/-!
# Attributes in document order

`Node.nodes` lists the elements of a tree the way a reader comes to them: an element before all
that is below it, and a child with all that is below it before the next.  What comes first is
not said by the assignments, which make up the elements one by one.  It is said by the trails if
the children of every element stand by the ranks of their names and, under one name, by their
indices (`Node.Ascending`).  Then of two elements the one with the earlier trail comes first
(`Earlier`).

`bearers` are the elements with some attribute, together with its values.  In a tree they stand in
document order (`pairwise_bearers_contents`).  So if placements that set the attribute are in that
order too, then the values are read through the document in the order in which they are placed
(`attributeValues_place`).
-/

namespace GeoMetadata

open Document (Trail Placement elements endName place)

variable {rank : String → String → Nat}

/-! ## Earlier and later elements -/

/-- The name at the end of a trail does not depend on where it began, unless it is empty. -/
theorem Document.endName_cons (root : String) (key : String × Nat) (trail : Trail) :
    endName root (key :: trail) = endName key.1 trail := by
  rw [endName, endName, List.getLast?_cons]
  cases trail.getLast? <;> rfl

/-- The first trail leads to an element before that of the second, as seen from a node: to one
above it, or along a child that stands before the other. -/
def Document.Earlier (rank : String → String → Nat) : String → Trail → Trail → Prop
  | _, _, [] => False
  | _, [], _ :: _ => True
  | parent, (name, index) :: rest, (other, number) :: tail =>
    if name = other then index < number ∨ index = number ∧ Earlier rank name rest tail
    else rank parent name < rank parent other

open Document (Earlier endName_cons)

theorem Document.Earlier.asymm {parent : String} {first second : Trail}
    (h : Earlier rank parent first second) : ¬ Earlier rank parent second first := by
  induction first generalizing parent second with
  | nil => cases second <;> exact id
  | cons key rest ih =>
      obtain ⟨name, index⟩ := key
      rcases second with _ | ⟨⟨other, number⟩, tail⟩
      · exact h.elim
      · rw [Earlier] at h ⊢
        -- The first step decides, unless it leads to one child.
        by_cases hsame : name = other
        · subst hsame
          rw [if_pos rfl] at h ⊢
          rintro (hless | ⟨hindex, hrest⟩)
          · rcases h with h | ⟨hindex, -⟩ <;> omega
          · rcases h with h | ⟨-, h⟩
            · omega
            · exact ih h hrest
        · rw [if_neg hsame] at h
          rw [if_neg (Ne.symm hsame)]
          exact Nat.lt_asymm h

/-- Elements below a common one stand as they do as seen from it. -/
theorem Document.Earlier.append_left {parent : String} {first second : Trail} (common : Trail)
    (h : Earlier rank (endName parent common) first second) :
    Earlier rank parent (common ++ first) (common ++ second) := by
  induction common generalizing parent with
  | nil => exact h
  | cons key rest ih =>
      rw [endName_cons] at h
      rw [List.cons_append, List.cons_append, Earlier, if_pos rfl]
      exact .inr ⟨rfl, ih h⟩

/-- The children stand by the ranks of their names, and those of one name by their indices. -/
def Node.Ascending (rank : String → String → Nat) (node : Node) : Prop :=
  node.children.Pairwise fun child other =>
    if child.name = other.name then child.index.toNat < other.index.toNat
    else rank node.name child.name < rank node.name other.name

theorem Node.InOrder.ascending {node : Node} (h : node.InOrder rank)
    (hindices : ∀ name, ((node.indicesOf name).map Int.toNat).Pairwise (· < ·)) :
    node.Ascending rank := by
  rw [Node.InOrder, List.pairwise_map] at h
  refine List.pairwise_iff_forall_sublist.mpr fun {child other} hsublist => ?_
  by_cases hname : child.name = other.name
  · -- Both are among the children of one name, in the same order.
    have hnamed := hindices other.name
    rw [Node.indicesOf, List.map_map, List.pairwise_map] at hnamed
    have hfilter : [child, other].filter (fun node => node.name = other.name) = [child, other] :=
      List.filter_eq_self.mpr (by simp [hname])
    have hboth : [child, other].Sublist (node.childrenNamed other.name) :=
      hfilter ▸ hsublist.filter _
    rw [if_pos hname]
    exact List.pairwise_iff_forall_sublist.mp hnamed hboth
  · rw [if_neg hname]
    exact (List.pairwise_iff_forall_sublist.mp h hsublist).resolve_left hname

/-! ## The elements with an attribute -/

namespace Document

/-- The trail of the element that a place is an attribute of, if it is one of that name. -/
def bearer? (attrName : String) : List Segment → Option Trail
  | [] => none
  | .attr name :: _ => if name = attrName then some [] else none
  | .element name index :: rest => (bearer? attrName rest).map fun trail => (name, index) :: trail

/-- The elements that placements give an attribute, with its values. -/
def bearers (attrName : String) (placements : List Placement) : List (Trail × String) :=
  placements.filterMap fun p => (bearer? attrName p.1).map fun trail => (trail, p.2)

variable {attrName : String}

theorem bearers_append (attrName : String) (before after : List Placement) :
    bearers attrName (before ++ after) = bearers attrName before ++ bearers attrName after :=
  List.filterMap_append

@[simp] theorem bearer?_elements_append (attrName : String) (trail : Trail) :
    bearer? attrName (elements trail ++ [.attr attrName]) = some trail := by
  induction trail with
  | nil => exact if_pos rfl
  | cons key rest ih => exact congrArg (Option.map _) ih

theorem bearer?_eq_none {segments : List Segment} (h : .attr attrName ∉ segments) :
    bearer? attrName segments = none := by
  induction segments with
  | nil => rfl
  | cons first rest ih =>
      rw [List.mem_cons, not_or] at h
      cases first with
      | element name index => rw [bearer?, ih h.2, Option.map_none]
      | attr name => exact if_neg fun (hname : name = attrName) => h.1 (by rw [hname])

/-- A name stands once among the attributes of an element, so that it has the value that is looked
up. -/
theorem bearers_entries (attrName : String) (attributes : OrderedMap String String) :
    bearers attrName (attributes.entries.map fun entry => ([.attr entry.1], entry.2)) =
      ((attributes.get? attrName).map fun value => ([], value)).toList := by
  obtain ⟨entries, hnodup⟩ := attributes
  show _ = ((entryValue? attrName entries).map _).toList
  induction entries with
  | nil => rfl
  | cons entry rest ih =>
      obtain ⟨hfresh, hrest⟩ := List.nodup_cons.mp hnodup
      have hstep := ih hrest
      by_cases hname : entry.1 = attrName
      · -- Names of attributes are distinct, so that no later entry has this one.
        have hnone : entryValue? attrName rest = none := by
          refine Option.eq_none_iff_forall_not_mem.mpr fun value hvalue => hfresh ?_
          rw [hname]
          exact List.mem_map_of_mem (f := Prod.fst) (mem_of_entryValue?_eq_some hvalue)
        rw [hnone] at hstep
        rw [entryValue?, if_pos hname, List.map_cons, bearers, List.filterMap_cons_some
          (by rw [bearer?, if_pos hname, Option.map_some])]
        exact congrArg _ hstep
      · rw [entryValue?, if_neg hname, List.map_cons, bearers, List.filterMap_cons_none
          (by rw [bearer?, if_neg hname, Option.map_none])]
        exact hstep

end Document

open Document (bearer? bearers)

namespace Node

/-- What holds of a node if it holds of its children holds of all nodes. -/
theorem induction_children {P : Node → Prop}
    (step : ∀ node : Node, (∀ child ∈ node.children, P child) → P node) (node : Node) :
    P node := by
  refine @Node.rec P (fun children => ∀ child ∈ children, P child) ?node ?nil ?cons node
  case node =>
    intro name index text attributes children hchildren
    exact step ⟨name, index, text, attributes, children⟩ hchildren
  case nil => simp
  case cons => exact fun child rest hchild hrest => List.forall_mem_cons.mpr ⟨hchild, hrest⟩

theorem contentsOfAll_eq_flatMap (all : List Node) :
    contentsOfAll all = all.flatMap fun child => child.contents.map child.fromParent := by
  induction all with
  | nil => rfl
  | cons child rest ih => rw [contentsOfAll, ih, List.flatMap_cons]

/-- The trail and the value of an element with an attribute, as seen from the parent. -/
def bearerFromParent (child : Node) (bearer : Trail × String) : Trail × String :=
  ((child.name, child.index.toNat) :: bearer.1, bearer.2)

/-- The elements with an attribute are the node itself, if it has it, and those below the children
one after the other. -/
theorem bearers_contents (attrName : String) (node : Node) :
    bearers attrName node.contents =
      ((node.attributes.get? attrName).map fun value => ([], value)).toList
        ++ node.children.flatMap fun child =>
          (bearers attrName child.contents).map child.bearerFromParent := by
  obtain ⟨name, index, text, attributes, children⟩ := node
  have htext : bearers attrName (text.toList.map fun value => ([], value)) = [] := by
    cases text <;> rfl
  have hbelow (child : Node) : bearers attrName (child.contents.map child.fromParent) =
      (bearers attrName child.contents).map child.bearerFromParent := by
    rw [bearers, bearers, List.filterMap_map, List.map_filterMap]
    refine List.filterMap_congr fun p _ => ?_
    simp only [Function.comp_apply, fromParent, bearer?, Option.map_map]
    rfl
  rw [contents, Document.bearers_append, Document.bearers_append, htext, List.nil_append,
    contentsOfAll_eq_flatMap]
  refine congrArg₂ _ (Document.bearers_entries attrName attributes) ?_
  rw [bearers, List.filterMap_flatMap]
  exact List.flatMap_congr fun child _ => hbelow child

/-- The names of the elements with an attribute and their values, in document order. -/
def attributeValues (attrName : String) (node : Node) : List (String × String) :=
  node.nodes.filterMap fun inner =>
    (inner.attributes.get? attrName).map fun value => (inner.name, value)

theorem map_fst_attributeValues (attrName : String) (node : Node) :
    (node.attributeValues attrName).map Prod.fst =
      (node.nodes.filter fun inner => (inner.attributes.get? attrName).isSome).map Node.name := by
  rw [attributeValues, List.map_filterMap, ← List.filterMap_eq_map, List.filterMap_filter]
  refine List.filterMap_congr fun inner _ => ?_
  cases inner.attributes.get? attrName <;> rfl

/-- The contents are listed in document order. -/
theorem attributeValues_eq_map_bearers (attrName : String) (node : Node) :
    node.attributeValues attrName =
      (bearers attrName node.contents).map fun bearer =>
        (endName node.name bearer.1, bearer.2) := by
  induction node using induction_children with
  | step node ih =>
      rw [attributeValues, nodes_eq_cons, List.filterMap_cons, bearers_contents, List.map_append,
        List.filterMap_flatMap, List.map_flatMap]
      have hchildren : (node.children.flatMap fun child => child.attributeValues attrName) =
          node.children.flatMap fun child =>
            ((bearers attrName child.contents).map child.bearerFromParent).map fun bearer =>
              (endName node.name bearer.1, bearer.2) := by
        refine List.flatMap_congr fun child hchild => ?_
        rw [ih child hchild, List.map_map]
        refine List.map_congr_left fun bearer _ => Prod.ext ?_ rfl
        exact (endName_cons node.name (child.name, child.index.toNat) bearer.1).symm
      rw [← hchildren]
      cases node.attributes.get? attrName <;> rfl

/-- In a tree whose children all ascend, the elements with an attribute stand in document order. -/
theorem pairwise_bearers_contents (attrName : String) (node : Node)
    (h : ∀ inner ∈ node.nodes, inner.Ascending rank) :
    (bearers attrName node.contents).Pairwise fun first second =>
      Earlier rank node.name first.1 second.1 := by
  induction node using induction_children with
  | step node ih =>
      rw [nodes_eq_cons, List.forall_mem_cons] at h
      obtain ⟨hnode, hbelow⟩ := h
      rw [bearers_contents, List.pairwise_append]
      -- A node comes before what is below it.  Two below it are below one child or below two.
      refine ⟨?own, ?below, ?cross⟩
      case own => cases node.attributes.get? attrName <;> simp
      case below =>
        rw [List.pairwise_flatMap]
        constructor
        · intro child hchild
          rw [List.pairwise_map]
          have hin := ih child hchild fun inner hinner =>
            hbelow inner (List.mem_flatMap.mpr ⟨child, hchild, hinner⟩)
          refine hin.imp fun {first second} hearlier => ?_
          rw [bearerFromParent, bearerFromParent, Earlier, if_pos rfl]
          exact .inr ⟨rfl, hearlier⟩
        · refine List.Pairwise.imp (fun {child other} hchild first hfirst second hsecond => ?_)
            hnode
          obtain ⟨inner, -, rfl⟩ := List.mem_map.mp hfirst
          obtain ⟨outer, -, rfl⟩ := List.mem_map.mp hsecond
          rw [bearerFromParent, bearerFromParent, Earlier]
          split at hchild
          · rename_i hname
            rw [if_pos hname]
            exact .inl hchild
          · rename_i hname
            rw [if_neg hname]
            exact hchild
      case cross =>
        intro first hfirst second hsecond
        obtain ⟨value, -, rfl⟩ := Option.map_eq_some_iff.mp (Option.mem_toList.mp hfirst)
        obtain ⟨child, -, hchild⟩ := List.mem_flatMap.mp hsecond
        obtain ⟨inner, -, rfl⟩ := List.mem_map.mp hchild
        trivial

end Node

namespace Document

variable {attrName root : String} {placements : List Placement} {index : Int}

/-- In an assembled document the values of an attribute are read in the order in which they are
placed, if that is the order of the elements that get them. -/
theorem attributeValues_place
    (hplaces : ∀ p ∈ placements, Segment.isPlace p.1 = true)
    (hnodup : (placements.map Prod.fst).Nodup)
    (hascending : ∀ node ∈ (place placements (.leaf root index)).nodes, node.Ascending rank)
    (hearlier : (bearers attrName placements).Pairwise fun first second =>
      Earlier rank root first.1 second.1) :
    (place placements (.leaf root index)).attributeValues attrName =
      (bearers attrName placements).map fun bearer => (endName root bearer.1, bearer.2) := by
  have hsorted := Node.pairwise_bearers_contents attrName _ hascending
  rw [name_place] at hsorted
  have hperm : (bearers attrName (place placements (.leaf root index)).contents).Perm
      (bearers attrName placements) :=
    (contents_place hplaces hnodup).filterMap _
  -- The order is strict, so that the same bearers stand in it in one way only.
  have heq := hperm.eq_of_pairwise (fun _ _ _ _ h h' => absurd h' h.asymm) hsorted hearlier
  rw [Node.attributeValues_eq_map_bearers, heq, name_place]
  rfl

end Document

end GeoMetadata
