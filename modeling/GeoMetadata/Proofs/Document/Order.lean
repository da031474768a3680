import GeoMetadata.Proofs.Document.Placement
import GeoMetadata.Proofs.Path.Template
import Mathlib.Data.List.Pairwise

/-!
# The order of an assembled document

Assembly never sorts: an element stands where the first place that leads through it was written.
So the order of a document has to be read off the order of its assignments, two at a time.

* `Precedes` compares two places where they part: the names there must be in order, or the
  indices of one name differ, and no text stands at an element that the other place leads
  further down from.
* If every assignment precedes those after it, then all nodes of the document have their children
  in order (`Node.InOrder`) and none has both a text and children (`Node.Unmixed`), see
  `unmixed_and_inOrder_of_pairwise`.
* The places of a template differ in an index only.  `Template.precedes` and `Template.diverges`
  decide on templates what holds of their places for all indices, and for all different ones.

The order of names is a parameter: `rank parent name` is the position of a name among the names of
the children of an element.
-/

namespace GeoMetadata

variable {rank : String → String → Nat}

/-! ## Pairs of places -/

/-- The first place may be written before the second, as seen from a node. -/
def Document.Precedes (rank : String → String → Nat) : String → List Segment → List Segment → Prop
  | parent, .element name index :: rest, .element other number :: tail =>
    if name = other then index = number → Precedes rank name rest tail
    else rank parent name < rank parent other
  | _, .attr name :: _, .attr other :: _ => name ≠ other
  | _, [], [] => False
  | _, [], .element .. :: _ => False
  | _, .element .. :: _, [] => False
  | _, _, _ => True

/-- The children stand in the order of their names; children of one name stand together. -/
def Node.InOrder (rank : String → String → Nat) (node : Node) : Prop :=
  (node.children.map Node.name).Pairwise fun name other =>
    name = other ∨ rank node.name name < rank node.name other

/-- Between two children of one name there are only children of that name. -/
def Node.Grouped (node : Node) : Prop :=
  ∀ before first between last after,
    node.children = before ++ first :: (between ++ last :: after) → first.name = last.name →
      ∀ child ∈ between, child.name = first.name

/-- The node has no text or no children. -/
def Node.Unmixed (node : Node) : Prop := node.text = none ∨ node.children = []

/-- Ranks do not come back once they have grown. -/
theorem Node.InOrder.grouped {node : Node} (h : node.InOrder rank) : node.Grouped := by
  intro before first between last after hchildren hname child hchild
  rw [Node.InOrder, List.pairwise_map, hchildren] at h
  obtain ⟨hfirst, hrest⟩ := List.pairwise_cons.mp (List.pairwise_append.mp h).2.1
  have hleft := hfirst child (List.mem_append_left _ hchild)
  have hright := (List.pairwise_append.mp hrest).2.2 child hchild last List.mem_cons_self
  rcases hleft with hleft | hleft
  · exact hleft.symm
  · rcases hright with hright | hright
    · rw [hright, hname]
    · rw [hname] at hleft
      exact absurd (Nat.lt_trans hleft hright) (Nat.lt_irrefl _)

namespace Document

theorem not_precedes_self (rank : String → String → Nat) (parent : String)
    (segments : List Segment) : ¬ Precedes rank parent segments segments := by
  induction segments generalizing parent with
  | nil => exact id
  | cons first rest ih =>
      cases first with
      | element name index => simpa [Precedes] using ih name
      | attr name => simp [Precedes]

theorem nodup_of_pairwise {parent : String} {placements : List Placement}
    (h : placements.Pairwise fun p q => Precedes rank parent p.1 q.1) :
    (placements.map Prod.fst).Nodup := by
  rw [List.nodup_iff_pairwise_ne, List.pairwise_map]
  refine h.imp fun {p q} hpq (heq : p.1 = q.1) => not_precedes_self rank parent q.1 ?_
  rwa [heq] at hpq

/-- Of two places, one precedes the other, in one direction or the other. -/
theorem precedes_or_precedes {parent : String} {placements : List Placement}
    (h : placements.Pairwise fun p q => Precedes rank parent p.1 q.1) {p q : Placement}
    (hp : p ∈ placements) (hq : q ∈ placements) (hpq : p ≠ q) :
    Precedes rank parent p.1 q.1 ∨ Precedes rank parent q.1 p.1 := by
  -- `List.Pairwise.forall` is about symmetric relations only.
  let either (p q : Placement) : Prop :=
    Precedes rank parent p.1 q.1 ∨ Precedes rank parent q.1 p.1
  have hsymm : Std.Symm either := ⟨fun _ _ => Or.symm⟩
  have heither : placements.Pairwise either := h.imp Or.inl
  exact heither.forall hp hq hpq

theorem pairwise_below {parent : String} {placements : List Placement} (key : String × Nat)
    (h : placements.Pairwise fun p q => Precedes rank parent p.1 q.1) :
    (below key placements).Pairwise fun p q => Precedes rank key.1 p.1 q.1 := by
  refine h.filterMap _ fun p q hpq p' hp' q' hq' => ?_
  have hthrough {p p' : Placement} (hp : throughChild? key p = some p') :
      p.1 = .element key.1 key.2 :: p'.1 := by
    unfold throughChild? at hp
    split at hp
    · split at hp
      · rename_i hkey
        rw [← Option.some.inj hp, ← hkey]
      · simp at hp
    · simp at hp
  rw [hthrough hp', hthrough hq'] at hpq
  simpa [Precedes] using hpq

/-- The text of a node comes from a placement at the node itself, and a child from one that leads
further down, so that neither precedes the other. -/
theorem unmixed_of_pairwise {name : String} {index : Int} {placements : List Placement}
    (h : placements.Pairwise fun p q => Precedes rank name p.1 q.1) :
    (place placements (.leaf name index)).Unmixed := by
  rw [Node.Unmixed, place_leaf, List.getLast?_eq_none_iff, List.map_eq_nil_iff]
  rcases List.eq_nil_or_concat' (childKeys placements) with hnone | ⟨_, key, hkeys⟩
  · exact .inr hnone
  · left
    have hkey : key ∈ childKeys placements := by
      rw [hkeys]
      exact List.mem_append_right _ (List.mem_singleton_self key)
    obtain ⟨q, hq, hhead⟩ := mem_childKeys.mp hkey
    refine List.eq_nil_iff_forall_not_mem.mpr fun text htext => ?_
    obtain ⟨p, hp, htext⟩ := List.mem_filterMap.mp htext
    obtain ⟨segments, value⟩ := p
    obtain ⟨others, other⟩ := q
    rcases segments with _ | ⟨first, rest⟩
    · rcases others with _ | ⟨⟨childName, childIndex⟩ | attrName, tail⟩
      · nomatch hhead
      · rcases precedes_or_precedes h hp hq (by simp) with hpq | hqp
        · exact hpq
        · exact hqp
      · nomatch hhead
    · nomatch htext

theorem map_name_children_place (placements : List Placement) (name : String) (index : Int) :
    (place placements (.leaf name index)).children.map Node.name =
      (childKeys placements).map Prod.fst := by
  rw [place_leaf, List.map_map]
  exact List.map_congr_left fun key _ => name_place _ _

/-- The children stand in the order of the first places that lead through them. -/
theorem inOrder_of_pairwise {name : String} {index : Int} {placements : List Placement}
    (h : placements.Pairwise fun p q => Precedes rank name p.1 q.1) :
    (place placements (.leaf name index)).InOrder rank := by
  rw [Node.InOrder, map_name_children_place, List.pairwise_map, name_place]
  -- Dropping repetitions keeps the order of first visits, in which the places stand.
  refine List.Pairwise.sublist (eraseDups_sublist _) (h.filterMap _ fun p q hpq k hk l hl => ?_)
  obtain ⟨segments, value⟩ := p
  obtain ⟨others, other⟩ := q
  rcases segments with _ | ⟨⟨childName, childIndex⟩ | attrName, rest⟩
  · nomatch hk
  · rcases others with _ | ⟨⟨otherName, otherIndex⟩ | otherAttr, tail⟩
    · nomatch hl
    · obtain rfl := Option.some.inj hk
      obtain rfl := Option.some.inj hl
      unfold Precedes at hpq
      by_cases hsame : childName = otherName
      · exact .inl hsame
      · rw [if_neg hsame] at hpq
        exact .inr hpq
    · nomatch hl
  · nomatch hk

/-- If every assignment precedes those after it, then no node of the document has both a text and
children, and all have their children in order. -/
theorem unmixed_and_inOrder_of_pairwise {name : String} {index : Int} {placements : List Placement}
    (h : placements.Pairwise fun p q => Precedes rank name p.1 q.1) :
    ∀ node ∈ (place placements (.leaf name index)).nodes, node.Unmixed ∧ node.InOrder rank :=
  forall_mem_nodes_place
    (fun name placements => placements.Pairwise fun p q => Precedes rank name p.1 q.1)
    (fun h _ => pairwise_below _ h)
    (fun h => ⟨unmixed_of_pairwise h, inOrder_of_pairwise h⟩) h

end Document

/-! ## Pairs of templates -/

namespace Path

/-- The name of the element that a segment of a template leads to. -/
def TemplateSegment.elementName? : TemplateSegment → Option String
  | .single name => some name
  | .repeated name => some name
  | .attr _ => none

namespace Template

/-- Every place of the first template precedes every place of the second. -/
def precedes (rank : String → String → Nat) : String → Template → Template → Bool
  | _, [], [] => false
  | _, [], second :: _ => second.elementName?.isNone
  | _, first :: _, [] => first.elementName?.isNone
  | parent, first :: rest, second :: tail =>
    match first.elementName?, second.elementName? with
    | some name, some other =>
      if name = other then precedes rank name rest tail else rank parent name < rank parent other
    | none, none => first != second
    | _, _ => true

/-- Places of the two templates part at the first index that they have, if it differs. -/
def diverges : Template → Template → Bool
  | .single name :: rest, .single other :: tail => name == other && diverges rest tail
  | .repeated name :: _, .repeated other :: _ => name == other
  | _, _ => false

open Document (Precedes)

theorem precedes_segments {parent : String} {first second : Template}
    (h : precedes rank parent first second = true) (i j : Nat) :
    Precedes rank parent (first.segments i) (second.segments j) := by
  induction first generalizing parent second with
  | nil =>
      rcases second with _ | ⟨_ | _ | _, _⟩ <;>
        simp [precedes, TemplateSegment.elementName?, Precedes, segments] at h ⊢
  | cons segment rest ih =>
      rcases second with _ | ⟨other, tail⟩
      · cases segment <;>
          simp [precedes, TemplateSegment.elementName?, Precedes, segments] at h ⊢
      · -- Two elements are compared by their names, be their indices open or not.
        have helement {name other : String} (k l : Nat)
            (h : (if name = other then precedes rank name rest tail
              else decide (rank parent name < rank parent other)) = true) :
            Precedes rank parent (.element name k :: segments rest i)
              (.element other l :: segments tail j) := by
          by_cases hsame : name = other
          · rw [if_pos hsame] at h
            simpa only [Precedes, if_pos hsame] using fun _ => ih h
          · rw [if_neg hsame, decide_eq_true_eq] at h
            simpa only [Precedes, if_neg hsame] using h
        rw [segments_cons, segments_cons]
        cases segment <;> cases other
        case single.single | single.repeated | repeated.single | repeated.repeated =>
          exact helement _ _ h
        case attr.attr =>
          simpa [precedes, TemplateSegment.elementName?, TemplateSegment.segment, Precedes] using h
        all_goals trivial

theorem precedes_segments_of_diverges {parent : String} {first second : Template}
    (h : diverges first second = true) {i j : Nat} (hij : i ≠ j) :
    Precedes rank parent (first.segments i) (second.segments j) := by
  induction first generalizing parent second with
  | nil => simp [diverges] at h
  | cons segment rest ih =>
      rcases second with _ | ⟨other, tail⟩
      · simp [diverges] at h
      · cases segment <;> cases other <;> simp only [diverges, Bool.and_eq_true, beq_iff_eq,
          Bool.false_eq_true] at h
        · obtain ⟨rfl, h⟩ := h
          rw [segments_cons, segments_cons]
          simpa [TemplateSegment.segment, Precedes] using ih h
        · subst h
          rw [segments_cons, segments_cons]
          simp [TemplateSegment.segment, Precedes, hij]

end Template

end Path

end GeoMetadata
