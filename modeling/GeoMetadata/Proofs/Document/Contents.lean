import GeoMetadata.Proofs.Document.Placement

/-!
# What a document holds

`Node.contents` lists all texts and attributes of a tree with the places they stand at, and
`Node.valueAt?` looks a single place up.  Writing a value adds one entry to the contents if the
place is not taken yet (`contents_assign`), and it changes what is found at that place and at no
other (`valueAt?_assign`).  So a document that is assembled from different places holds the
placements and nothing else (`contents_place`), and each value is found at its place
(`valueAt?_place`).

The contents are known up to their order only: a value that is written to a child that is there
already comes before what stands below later children.  Both facts are by induction on the segments
of a place (`Segment.isPlace`), and a step down is a change of the first child with a name and an
index (`find?_changeFirst`, `contentsOfAll_changeFirst`).
-/

namespace GeoMetadata

open Document (Placement assign place)

namespace Node

/-- The placement within a child, as seen from its parent. -/
def fromParent (child : Node) (placement : Placement) : Placement :=
  (.element child.name child.index.toNat :: placement.1, placement.2)

mutual

/-- The texts and attributes of a node and of all nodes below it, with their places. -/
def contents : Node → List Placement
  | ⟨_, _, text, attributes, children⟩ =>
    text.toList.map (fun value => ([], value))
      ++ attributes.entries.map (fun (name, value) => ([.attr name], value))
      ++ contentsOfAll children

/-- The texts and attributes of some nodes and of all nodes below them, as seen from the parent. -/
def contentsOfAll : List Node → List Placement
  | [] => []
  | child :: rest => child.contents.map child.fromParent ++ contentsOfAll rest

end

/-- The value that stands at a place. -/
def valueAt? : List Segment → Node → Option String
  | [], node => node.text
  | .attr name :: _, node => node.attributes.get? name
  | .element name index :: rest, node => (node.findChild? name index).bind (valueAt? rest)

end Node

/-- Only the last segment of a place may be an attribute. -/
def Segment.isPlace : List Segment → Bool
  | [] => true
  | [.attr _] => true
  | .attr _ :: _ :: _ => false
  | .element .. :: rest => isPlace rest

namespace Document

/-! ## Looking up

Only the first node of a name and an index is ever changed or found, so that looking up goes the way
that writing went. -/

theorem valueAt?_leaf (segments : List Segment) (name : String) (index : Int) :
    (Node.leaf name index).valueAt? segments = none := by
  rcases segments with _ | ⟨⟨childName, childIndex⟩ | attrName, rest⟩ <;> rfl

theorem answersTo_eq {node changed : Node} (hname : changed.name = node.name)
    (hindex : changed.index = node.index) (name : String) (index : Int) :
    changed.answersTo name index = node.answersTo name index := by
  rw [Node.answersTo, Node.answersTo, hname, hindex]

theorem answersTo_leaf {name other : String} {index number : Int} :
    (Node.leaf name index).answersTo other number = true ↔ (name, index) = (other, number) := by
  rw [answersTo_iff, Prod.mk.injEq]
  rfl

/-- The node found after a change of the first node with some name and index. -/
theorem find?_changeFirst (change : Node → Node) (hname : ∀ node, (change node).name = node.name)
    (hindex : ∀ node, (change node).index = node.index) (name other : String)
    (index number : Int) (nodes : List Node) :
    (Node.changeFirst name index change nodes).find? (·.answersTo other number) =
      if (name, index) = (other, number) then
        some (change ((nodes.find? (·.answersTo name index)).getD (.leaf name index)))
      else nodes.find? (·.answersTo other number) := by
  induction nodes with
  | nil =>
      have hanswer := answersTo_eq (hname (.leaf name index)) (hindex (.leaf name index)) other number
      simp only [Node.changeFirst, List.find?_cons, List.find?_nil, hanswer, Option.getD_none]
      by_cases hsame : (name, index) = (other, number)
      · rw [if_pos hsame, answersTo_leaf.mpr hsame]
      · rw [if_neg hsame, Bool.eq_false_iff.mpr (mt answersTo_leaf.mp hsame)]
  | cons node rest ih =>
      by_cases hfirst : node.answersTo name index = true
      · have hanswer := answersTo_eq (hname node) (hindex node) other number
        rw [Node.changeFirst, if_pos hfirst, List.find?_cons, List.find?_cons, hanswer]
        by_cases hsame : (name, index) = (other, number)
        · obtain ⟨rfl, rfl⟩ := Prod.mk.inj hsame
          simp [hfirst]
        · have hother : node.answersTo other number = false := by
            rw [Bool.eq_false_iff]
            intro hother
            obtain ⟨hn, hi⟩ := answersTo_iff.mp hfirst
            obtain ⟨hn', hi'⟩ := answersTo_iff.mp hother
            exact hsame (Prod.ext (hn.symm.trans hn') (hi.symm.trans hi'))
          simp [hother, hsame]
      · rw [Node.changeFirst, if_neg hfirst, List.find?_cons, List.find?_cons, ih, List.find?_cons,
          Bool.eq_false_iff.mpr hfirst]
        by_cases hsame : (name, index) = (other, number)
        · obtain ⟨rfl, rfl⟩ := Prod.mk.inj hsame
          simp [Bool.eq_false_iff.mpr hfirst]
        · cases node.answersTo other number <;> simp [hsame]

/-- Writing a value changes what stands at its place and at no other. -/
theorem valueAt?_assign {segments others : List Segment} (hsegments : Segment.isPlace segments = true)
    (hothers : Segment.isPlace others = true) (value : String) (node : Node) :
    (assign value segments node).valueAt? others =
      if segments = others then some value else node.valueAt? others := by
  induction segments using Segment.isPlace.induct generalizing node others with
  | case1 => cases others with
    | nil => rfl
    | cons first rest => cases first <;> rfl
  | case2 name =>
      rcases others with _ | ⟨⟨childName, childIndex⟩ | attrName, rest⟩
      · rfl
      · rfl
      · cases rest with
        | nil =>
            simp only [assign, Node.withAttribute, Node.valueAt?, OrderedMap.get?_insert]
            simp
        | cons next tail => simp [Segment.isPlace] at hothers
  | case3 name next rest => simp [Segment.isPlace] at hsegments
  | case4 name index rest ih =>
      rcases others with _ | ⟨⟨childName, childIndex⟩ | attrName, tail⟩
      · rfl
      · rw [Segment.isPlace] at hsegments hothers
        have hfind := find?_changeFirst (assign value rest) (name_assign value rest)
          (index_assign value rest) name childName index childIndex node.children
        simp only [assign, Node.changeChild, Node.valueAt?, Node.findChild?, hfind]
        by_cases hsame : (name, index) = (childName, childIndex)
        · obtain ⟨rfl, rfl⟩ := Prod.mk.inj hsame
          simp only [if_true, Option.bind_some, ih hsegments hothers, List.cons.injEq, true_and]
          cases node.children.find? (·.answersTo name index) with
          | none => simp [valueAt?_leaf]
          | some child => simp
        · -- Nodes carry integers, places natural numbers: different places lead to different nodes.
          have hint : ¬ (name, (index : Int)) = (childName, (childIndex : Int)) := by
            intro h
            obtain ⟨hn, hi⟩ := Prod.mk.inj h
            exact hsame (Prod.ext hn (Int.ofNat.inj hi))
          have hcons :
              ¬ Segment.element name index :: rest = .element childName childIndex :: tail := by
            intro h
            simp_all
          rw [if_neg hint, if_neg hcons]
      · rfl

theorem valueAt?_place {placements : List Placement} {name : String} {index : Int}
    (hplaces : ∀ placement ∈ placements, Segment.isPlace placement.1 = true)
    (hnodup : (placements.map Prod.fst).Nodup) :
    ∀ placement ∈ placements,
      (place placements (.leaf name index)).valueAt? placement.1 = some placement.2 := by
  induction placements using List.reverseRecOn with
  | nil => simp
  | append_singleton placements last ih =>
      rw [List.map_append, List.map_singleton, List.nodup_append] at hnodup
      obtain ⟨hnodup, -, hfresh⟩ := hnodup
      rw [List.forall_mem_append, List.forall_mem_singleton] at hplaces
      intro placement hmem
      rw [place_concat]
      rcases List.mem_append.mp hmem with hmem | hmem
      · have hdiffer : ¬ last.1 = placement.1 :=
          Ne.symm (hfresh _ (List.mem_map_of_mem hmem) _ (List.mem_singleton_self _))
        rw [valueAt?_assign hplaces.2 (hplaces.1 _ hmem), if_neg hdiffer]
        exact ih hplaces.1 hnodup _ hmem
      · rw [List.mem_singleton.mp hmem, valueAt?_assign hplaces.2 hplaces.2, if_pos rfl]

/-! ## Contents -/

/-- The contents of some nodes once the first of a name and index is changed: the child's share
is what changes. -/
theorem contentsOfAll_changeFirst {name : String} {index : Nat} {rest : List Segment}
    (value : String) {nodes : List Node}
    (hchild : ∀ node : Node, rest ∉ node.contents.map Prod.fst →
      (assign value rest node).contents.Perm ((rest, value) :: node.contents))
    (hfresh : .element name index :: rest ∉ (Node.contentsOfAll nodes).map Prod.fst) :
    (Node.contentsOfAll (Node.changeFirst name index (assign value rest) nodes)).Perm
      ((.element name index :: rest, value) :: Node.contentsOfAll nodes) := by
  -- What happens in the changed child, whether it stood there or is a new leaf.
  have henter (node : Node) (hname : node.name = name) (hindex : node.index = index)
      (hnode : rest ∉ node.contents.map Prod.fst) :
      ((assign value rest node).contents.map (assign value rest node).fromParent).Perm
        ((.element name index :: rest, value) :: node.contents.map node.fromParent) := by
    have hsame : (assign value rest node).fromParent = node.fromParent := by
      funext placement
      rw [Node.fromParent, Node.fromParent, name_assign, index_assign]
    have hhead : node.fromParent (rest, value) = (.element name index :: rest, value) := by
      rw [Node.fromParent, hname, hindex, Int.toNat_natCast]
    rw [hsame, ← hhead, ← List.map_cons]
    exact (hchild node hnode).map _
  induction nodes with
  | nil =>
      have hleaf := henter (.leaf name index) rfl rfl (by simp [Node.leaf, Node.contents,
        Node.contentsOfAll, OrderedMap.empty])
      simpa [Node.changeFirst, Node.contentsOfAll, Node.leaf, Node.contents, OrderedMap.empty]
        using hleaf
  | cons node others ih =>
      rw [Node.contentsOfAll, List.map_append, List.mem_append, not_or] at hfresh
      rw [Node.changeFirst]
      by_cases hfirst : node.answersTo name index = true
      · obtain ⟨hname, hindex⟩ := answersTo_iff.mp hfirst
        rw [if_pos hfirst, Node.contentsOfAll, Node.contentsOfAll, ← List.cons_append]
        refine (henter node hname hindex fun hmem => hfresh.1 ?_).append_right _
        obtain ⟨placement, hmem, heq⟩ := List.mem_map.mp hmem
        rw [List.map_map]
        refine List.mem_map.mpr ⟨placement, hmem, ?_⟩
        rw [Function.comp_apply, Node.fromParent, hname, hindex, Int.toNat_natCast, heq]
      · -- The child is passed over, and the new entry moves in front of its contents.
        rw [if_neg hfirst, Node.contentsOfAll, Node.contentsOfAll]
        exact ((ih hfresh.2).append_left _).trans List.perm_middle

/-- Writing a value at a place that is not taken adds it to the contents. -/
theorem contents_assign {segments : List Segment} (hsegments : Segment.isPlace segments = true)
    {value : String} {node : Node} (hfresh : segments ∉ node.contents.map Prod.fst) :
    (assign value segments node).contents.Perm ((segments, value) :: node.contents) := by
  induction segments using Segment.isPlace.induct generalizing node with
  | case1 =>
      obtain ⟨name, index, text, attributes, children⟩ := node
      cases text with
      | none => exact List.Perm.refl _
      | some old => simp [Node.contents] at hfresh
  | case2 attrName =>
      obtain ⟨name, index, text, attributes, children⟩ := node
      have hnew : attrName ∉ attributes.keys := by
        intro hmem
        obtain ⟨entry, hentry, rfl⟩ := List.mem_map.mp hmem
        refine hfresh (List.mem_map.mpr ⟨([.attr entry.1], entry.2), ?_, rfl⟩)
        rw [Node.contents]
        exact List.mem_append_left _ (List.mem_append_right _ (List.mem_map.mpr ⟨entry, hentry, rfl⟩))
      simp only [assign, Node.withAttribute, Node.contents, OrderedMap.entries_insert_of_not_mem hnew,
        List.map_append, List.map_cons, List.map_nil, List.append_assoc, List.singleton_append]
      exact (List.perm_middle.append_left _).trans List.perm_middle
  | case3 attrName next rest => simp [Segment.isPlace] at hsegments
  | case4 childName childIndex rest ih =>
      obtain ⟨name, index, text, attributes, children⟩ := node
      rw [Segment.isPlace] at hsegments
      have hchildren : .element childName childIndex :: rest ∉
          (Node.contentsOfAll children).map Prod.fst := by
        intro hmem
        refine hfresh ?_
        rw [Node.contents, List.map_append]
        exact List.mem_append_right _ hmem
      have hperm := contentsOfAll_changeFirst value
        (fun node hnode => ih hsegments hnode) hchildren
      simp only [assign, Node.changeChild, Node.contents]
      exact (hperm.append_left _).trans List.perm_middle

/-- A document that is assembled from different places holds what was placed and nothing else. -/
theorem contents_place {placements : List Placement} {name : String} {index : Int}
    (hplaces : ∀ placement ∈ placements, Segment.isPlace placement.1 = true)
    (hnodup : (placements.map Prod.fst).Nodup) :
    (place placements (.leaf name index)).contents.Perm placements := by
  induction placements using List.reverseRecOn with
  | nil => exact List.Perm.refl _
  | append_singleton placements last ih =>
      rw [List.map_append, List.map_singleton, List.nodup_append] at hnodup
      obtain ⟨hnodup, -, hdiffer⟩ := hnodup
      rw [List.forall_mem_append, List.forall_mem_singleton] at hplaces
      have hperm := ih hplaces.1 hnodup
      have hfresh : last.1 ∉ (place placements (.leaf name index)).contents.map Prod.fst := by
        rw [(hperm.map Prod.fst).mem_iff]
        exact fun hmem => hdiffer _ hmem _ (List.mem_singleton_self _) rfl
      rw [place_concat]
      exact ((contents_assign hplaces.2 hfresh).trans (hperm.cons _)).trans
        (List.perm_append_singleton _ _).symm

end Document

end GeoMetadata
