import GeoMetadata.Proofs.Document.Description
import GeoMetadata.Proofs.Path.Template

/-!
# Indices of siblings

Elements carry an index among the siblings of their name, and what is written out does not.  The
two agree only if the siblings of a name stand in the order 1, 2, 3, and so on.  Nothing in
assembly sees to that: it depends on the indices in the paths and on the order of the paths.

* `Climbs` is what the indices of a name have to satisfy on the way: each is the first one or comes
  after its predecessor, repetitions allowed.  Without the repetitions they then are a range
  (`Climbs.eraseDups_append`).
* `indexAt?` is the index that a place has at some name below some element, so that the children of
  the element have the indices of all places (`indicesOf_place_seenFrom`).
* `Template.counted?` is the one element whose index a template leaves open.  At all other
  elements its places have the index 1 (`indexAt?_segments`).
-/

namespace GeoMetadata

open Document (answersTo_iff)

/-! ## Climbing lists -/

/-- Each number is 1 or the successor of one before it, be it among those that came earlier. -/
def Climbs : List Nat → List Nat → Prop
  | _, [] => True
  | earlier, n :: rest => (n = 1 ∨ ∃ m ∈ earlier, m + 1 = n) ∧ Climbs (earlier ++ [n]) rest

variable {earlier later numbers first second : List Nat} {n : Nat}

theorem climbs_append :
    Climbs earlier (first ++ second) ↔ Climbs earlier first ∧ Climbs (earlier ++ first) second := by
  induction first generalizing earlier with
  | nil => simp [Climbs]
  | cons n rest ih =>
      rw [List.cons_append, Climbs, Climbs, ih, List.append_assoc, List.singleton_append, and_assoc]

/-- The same number several times, where it may stand once. -/
theorem climbs_of_forall_eq (hn : n = 1 ∨ ∃ m ∈ earlier, m + 1 = n) (hall : ∀ m ∈ numbers, m = n) :
    Climbs earlier numbers := by
  induction numbers generalizing earlier with
  | nil => trivial
  | cons m rest ih =>
      obtain ⟨rfl, hrest⟩ := List.forall_mem_cons.mp hall
      refine ⟨hn, ih ?_ hrest⟩
      exact hn.imp_right fun ⟨k, hk, hkm⟩ => ⟨k, List.mem_append_left _ hk, hkm⟩

/-- Without repetitions, climbing numbers are a range. -/
theorem Climbs.eraseDups_append {count : Nat} (h : Climbs earlier numbers)
    (hearlier : earlier.eraseDups = List.range' 1 count) :
    ∃ total, (earlier ++ numbers).eraseDups = List.range' 1 total := by
  induction numbers generalizing earlier count with
  | nil => exact ⟨count, by rw [List.append_nil, hearlier]⟩
  | cons n rest ih =>
      obtain ⟨hn, hrest⟩ := h
      have hmem (m : Nat) : m ∈ earlier ↔ 1 ≤ m ∧ m < 1 + count := by
        rw [← List.mem_eraseDups, hearlier, List.mem_range'_1]
      have hnext := eraseDups_concat earlier n
      rw [List.append_cons]
      by_cases hseen : n ∈ earlier
      · rw [if_pos hseen, hearlier] at hnext
        exact ih hrest hnext
      · -- A new number is the one after all those before it.
        have hlast : n = 1 + count := by
          rw [hmem] at hseen
          rcases hn with rfl | ⟨m, hm, rfl⟩
          · omega
          · rw [hmem] at hm
            omega
        rw [if_neg hseen, hearlier] at hnext
        have hrange : (earlier ++ [n]).eraseDups = List.range' 1 (count + 1) := by
          rw [hnext, hlast, List.range'_1_concat]
        exact ih hrest hrange

theorem Climbs.eraseDups (h : Climbs [] numbers) :
    ∃ total, numbers.eraseDups = List.range' 1 total :=
  @Climbs.eraseDups_append [] numbers 0 h rfl

/-- More occurrences of 1 do not keep numbers from climbing. -/
theorem climbs_filterMap_of_agree {α : Type} {f g : α → Option Nat} {before after : List α}
    (hkeep : ∀ a n, g a = some n → f a = some n)
    (hother : ∀ a ∈ after, ∀ n, f a = some n → g a = some n ∨ n = 1)
    (h : Climbs (before.filterMap g) (after.filterMap g)) :
    Climbs (before.filterMap f) (after.filterMap f) := by
  induction after generalizing before with
  | nil => trivial
  | cons a rest ih =>
      have hsub : ∀ m ∈ before.filterMap g, m ∈ before.filterMap f := by
        intro m hm
        obtain ⟨b, hb, hbm⟩ := List.mem_filterMap.mp hm
        exact List.mem_filterMap.mpr ⟨b, hb, hkeep b m hbm⟩
      obtain ⟨ha, hrestOther⟩ := List.forall_mem_cons.mp hother
      have hstep := @ih (before ++ [a]) hrestOther
      rw [filterMap_concat, filterMap_concat] at hstep
      -- Where `g` gives nothing, `f` gives nothing or 1, and 1 may come at any time.
      cases hg : g a with
      | none =>
          rw [List.filterMap_cons_none hg] at h
          rw [hg, Option.toList_none, List.append_nil] at hstep
          cases hf : f a with
          | none =>
              rw [hf, Option.toList_none, List.append_nil] at hstep
              rw [List.filterMap_cons_none hf]
              exact hstep h
          | some n =>
              rw [hf, Option.toList_some] at hstep
              have hone : n = 1 := (ha n hf).resolve_left (by simp [hg])
              rw [List.filterMap_cons_some hf]
              exact ⟨.inl hone, hstep h⟩
      | some n =>
          rw [List.filterMap_cons_some hg] at h
          obtain ⟨hn, hrest⟩ := h
          have hf := hkeep a n hg
          rw [hg, hf, Option.toList_some] at hstep
          rw [List.filterMap_cons_some hf]
          exact ⟨hn.imp_right fun ⟨m, hm, hmn⟩ => ⟨m, hsub m hm, hmn⟩, hstep hrest⟩

/-! ## The indices of the children of an element

The children of an element are the heads of the places seen from it, each once.  Their indices under
one name are then those of the places, each once, because a child is told by its name and index. -/

/-- The children of some name. -/
def Node.childrenNamed (node : Node) (name : String) : List Node :=
  node.children.filter fun child => child.name = name

/-- The indices of the children of some name, in the order in which they stand. -/
def Node.indicesOf (node : Node) (name : String) : List Int :=
  (node.childrenNamed name).map Node.index

/-- The children of some name carry the indices 1, 2, 3 and so on, so that to look for an index is
to look for a position. -/
structure Node.NumbersInOrder (node : Node) (name : String) : Prop where
  indices : ∃ count, node.indicesOf name = (List.range' 1 count).map Nat.cast
  position : ∀ k, node.findChild? name ((k + 1 : Nat) : Int) = (node.childrenNamed name)[k]?

theorem find?_index_of_map_index {nodes : List Node} {start count : Nat}
    (h : nodes.map Node.index = (List.range' start count).map Nat.cast) (k : Nat) :
    nodes.find? (fun node => node.index == ((start + k : Nat) : Int)) = nodes[k]? := by
  induction nodes generalizing start count k with
  | nil => rfl
  | cons node rest ih =>
      cases count with
      | zero => nomatch h
      | succ count =>
          obtain ⟨hnode, hrest⟩ := List.cons.inj h
          cases k with
          | zero =>
              rw [List.find?_cons_of_pos (by simp [hnode])]
              rfl
          | succ k =>
              have hother : (node.index == ((start + (k + 1) : Nat) : Int)) = false := by
                rw [hnode, beq_eq_false_iff_ne]
                omega
              have hstep := ih hrest k
              rw [List.find?_cons, hother, List.getElem?_cons_succ, ← hstep, Nat.add_assoc,
                Nat.add_comm 1 k]

theorem Node.numbersInOrder_of_indicesOf {node : Node} {name : String} {count : Nat}
    (h : node.indicesOf name = (List.range' 1 count).map Nat.cast) : node.NumbersInOrder name where
  indices := ⟨count, h⟩
  position k := by
    have hfind := find?_index_of_map_index h k
    rw [Nat.add_comm] at hfind
    have hanswer (child : Node) : child.answersTo name ((k + 1 : Nat) : Int) =
        decide (decide (child.name = name) = true ∧ (child.index == ((k + 1 : Nat) : Int)) = true) := by
      rw [Bool.eq_iff_iff, decide_eq_true_iff, decide_eq_true_iff, beq_iff_eq, answersTo_iff]
    rw [← hfind, Node.childrenNamed, List.find?_filter, Node.findChild?]
    exact congrArg (List.find? · node.children) (funext hanswer)

namespace Document

/-- The index of the element of some name right below a trail, if a place leads there. -/
def indexAt? (name : String) : Trail → List Segment → Option Nat
  | [], .element other index :: _ => if other = name then some index else none
  | key :: trail, .element other index :: rest =>
    if (other, index) = key then indexAt? name trail rest else none
  | _, _ => none

variable {placements : List Placement} {name root : String} {index : Int} {trail : Trail}

theorem indexAt?_nil_eq_some_iff {other : String} {number : Nat} {rest : List Segment} :
    indexAt? name [] (.element other number :: rest) = some n ↔ other = name ∧ number = n := by
  simp [indexAt?]

theorem indexAt?_cons_eq_some_iff {other : String} {number : Nat} {rest : List Segment}
    {key : String × Nat} :
    indexAt? name (key :: trail) (.element other number :: rest) = some n ↔
      (other, number) = key ∧ indexAt? name trail rest = some n := by
  simp [indexAt?]

/-- What is seen from an element leads to a child with the index that the whole place has there. -/
theorem filterMap_indexAt?_seenFrom (name : String) (trail : Trail)
    (placements : List Placement) :
    ((seenFrom trail placements).filterMap fun p => indexAt? name [] p.1) =
      placements.filterMap fun p => indexAt? name trail p.1 := by
  induction trail generalizing placements with
  | nil => rw [seenFrom_nil]
  | cons key trail ih =>
      rw [seenFrom_cons, ih, below, List.filterMap_filterMap]
      refine List.filterMap_congr fun p _ => ?_
      obtain ⟨_ | ⟨⟨other, index⟩ | attrName, rest⟩, value⟩ := p
      · rfl
      · by_cases hkey : (other, index) = key <;> simp [throughChild?, indexAt?, hkey]
      · rfl

theorem filterMap_eraseDups {α β : Type} [BEq α] [LawfulBEq α] [DecidableEq α] [BEq β]
    [LawfulBEq β] [DecidableEq β] {f : α → Option β}
    (hinj : ∀ a a' b, f a = some b → f a' = some b → a = a') (as : List α) :
    as.eraseDups.filterMap f = (as.filterMap f).eraseDups := by
  induction as using List.reverseRecOn with
  | nil => rfl
  | append_singleton as a ih =>
      rw [eraseDups_concat, filterMap_concat]
      cases hfa : f a with
      | none =>
          rw [Option.toList_none, List.append_nil, ← ih]
          split
          · rfl
          · rw [filterMap_concat, hfa, Option.toList_none, List.append_nil]
      | some b =>
          have hmem : b ∈ as.filterMap f ↔ a ∈ as := by
            rw [List.mem_filterMap]
            constructor
            · rintro ⟨other, hother, hfb⟩
              exact hinj other a b hfb hfa ▸ hother
            · exact fun ha => ⟨a, ha, hfa⟩
          rw [Option.toList_some, eraseDups_concat]
          by_cases ha : a ∈ as
          · rw [if_pos ha, if_pos (hmem.mpr ha), ih]
          · rw [if_neg ha, if_neg (mt hmem.mp ha), filterMap_concat, hfa, Option.toList_some, ih]

/-- The children of an element at a trail have the indices that the places have there. -/
theorem indicesOf_place_seenFrom (other : String) :
    (place (seenFrom trail placements) (.leaf name index)).indicesOf other =
      (placements.filterMap fun p => indexAt? other trail p.1).eraseDups.map Nat.cast := by
  have hchild (key : String × Nat) :
      (childOf (seenFrom trail placements) key).name = key.1 ∧
        (childOf (seenFrom trail placements) key).index = key.2 :=
    ⟨name_place _ _, index_place _ _⟩
  -- A child is told from the others of its name by its index alone.
  let number? (key : String × Nat) : Option Nat := if key.1 = other then some key.2 else none
  have hnumber (key key' : String × Nat) (n : Nat) (h : number? key = some n)
      (h' : number? key' = some n) : key = key' := by
    simp only [number?, Option.ite_none_right_eq_some, Option.some.injEq] at h h'
    exact Prod.ext (h.1.trans h'.1.symm) (h.2.trans h'.2.symm)
  calc (place (seenFrom trail placements) (.leaf name index)).indicesOf other
    _ = ((childKeys (seenFrom trail placements)).filterMap number?).map Nat.cast := by
        rw [Node.indicesOf, Node.childrenNamed, place_leaf, List.filter_map, List.map_map,
          List.map_filterMap, ← List.filterMap_eq_map, List.filterMap_filter]
        refine List.filterMap_congr fun key _ => ?_
        by_cases hname : key.1 = other <;> simp [number?, hchild, hname]
    _ = (((seenFrom trail placements).filterMap fun p => indexAt? other [] p.1).eraseDups).map
          Nat.cast := by
        rw [childKeys, filterMap_eraseDups hnumber, List.filterMap_filterMap]
        refine congrArg (fun numbers : List Nat => numbers.eraseDups.map Nat.cast)
          (List.filterMap_congr fun p _ => ?_)
        obtain ⟨_ | ⟨⟨childName, childIndex⟩ | attrName, rest⟩, value⟩ := p
        · rfl
        · rfl
        · rfl
    _ = (placements.filterMap fun p => indexAt? other trail p.1).eraseDups.map Nat.cast := by
        rw [filterMap_indexAt?_seenFrom]

/-- The name of the element at a trail below a root. -/
def endName (root : String) (trail : Trail) : String := (trail.getLast?.map Prod.fst).getD root

theorem below_seenFrom (key : String × Nat) (trail : Trail) (placements : List Placement) :
    below key (seenFrom trail placements) = seenFrom (trail ++ [key]) placements := by
  induction trail generalizing placements with
  | nil => rw [List.nil_append, seenFrom_cons, seenFrom_nil, seenFrom_nil]
  | cons first trail ih => rw [List.cons_append, seenFrom_cons, seenFrom_cons, ih]

/-- A property holds of all nodes of a placed tree if it holds of what the placements as seen from
each trail make of a new node. -/
theorem forall_mem_nodes_place_of_seenFrom {P : Node → Prop}
    (h : ∀ trail index, trail = [] ∨ (∃ p ∈ placements, elements trail <+: p.1) →
      P (place (seenFrom trail placements) (.leaf (endName root trail) index))) :
    ∀ node ∈ (place placements (.leaf root index)).nodes, P node := by
  -- Going down, the placements at a node are those that are seen from its trail.
  refine forall_mem_nodes_place
    (fun name seen => ∃ trail, seen = seenFrom trail placements ∧ name = endName root trail ∧
      (trail = [] ∨ ∃ p ∈ placements, elements trail <+: p.1)) ?below ?top ⟨[], by simp [endName]⟩
  case below =>
    rintro name seen key ⟨trail, rfl, -, -⟩ hkey
    refine ⟨trail ++ [key], below_seenFrom key trail placements, by simp [endName], .inr ?_⟩
    rw [← seenFrom_ne_nil_iff, ← below_seenFrom]
    intro hnone
    obtain ⟨⟨segments, value⟩, hmem, hhead⟩ := mem_childKeys.mp hkey
    rcases segments with _ | ⟨⟨childName, childIndex⟩ | attrName, rest⟩
    · nomatch hhead
    · obtain rfl := Option.some.inj hhead
      exact List.ne_nil_of_mem (mem_below.mpr hmem) hnone
    · nomatch hhead
  case top =>
    rintro name index seen ⟨trail, rfl, rfl, hreached⟩
    exact h trail index hreached

end Document

/-! ## The element that a template counts -/

namespace Path.Template

open Document (Trail indexAt?)

/-- The element whose index a template leaves open: the trail of its parent, and its name. -/
def counted? : Template → Option (Trail × String)
  | .single name :: rest => (counted? rest).map fun (trail, last) => ((name, 1) :: trail, last)
  | .repeated name :: _ => some ([], name)
  | _ => none

/-- All indices are fixed. -/
def isFixed (template : Template) : Bool := template.all fun segment =>
  segment matches .single _ | .attr _

/-- No two indices are left open. -/
def countsOnce : Template → Bool
  | .single _ :: rest => countsOnce rest
  | .repeated _ :: rest => isFixed rest
  | _ => true

variable {template : Template} {name : String} {trail : Trail} {index n : Nat}

theorem eq_one_of_isFixed (h : template.isFixed = true)
    (hat : indexAt? name trail (template.segments index) = some n) :
    n = 1 ∧ .single name ∈ template := by
  induction template generalizing trail with
  | nil => cases trail <;> nomatch hat
  | cons segment rest ih =>
      rw [isFixed, List.all_cons, Bool.and_eq_true] at h
      rw [segments_cons] at hat
      cases segment with
      | single other =>
          cases trail with
          | nil =>
              obtain ⟨rfl, hn⟩ := Document.indexAt?_nil_eq_some_iff.mp hat
              exact ⟨hn.symm, List.mem_cons_self⟩
          | cons key trail =>
              obtain ⟨-, hat⟩ := Document.indexAt?_cons_eq_some_iff.mp hat
              exact (ih h.2 hat).imp_right (List.mem_cons_of_mem _)
      | «repeated» other => nomatch h.1
      | attr other => cases trail <;> nomatch hat

/-- A place of a template has the open index at the counted element, and 1 at all others. -/
theorem indexAt?_segments (h : template.countsOnce = true)
    (hat : indexAt? name trail (template.segments index) = some n) :
    template.counted? = some (trail, name) ∧ n = index ∨ n = 1 ∧ .single name ∈ template := by
  induction template generalizing trail with
  | nil => cases trail <;> nomatch hat
  | cons segment rest ih =>
      rw [segments_cons] at hat
      cases segment with
      | single other =>
          cases trail with
          | nil =>
              obtain ⟨rfl, hn⟩ := Document.indexAt?_nil_eq_some_iff.mp hat
              exact .inr ⟨hn.symm, List.mem_cons_self⟩
          | cons key trail =>
              obtain ⟨rfl, hinner⟩ := Document.indexAt?_cons_eq_some_iff.mp hat
              rcases ih h hinner with ⟨hcounted, hn⟩ | ⟨hn, hmem⟩
              · exact .inl ⟨by rw [counted?, hcounted, Option.map_some], hn⟩
              · exact .inr ⟨hn, List.mem_cons_of_mem _ hmem⟩
      | «repeated» other =>
          cases trail with
          | nil =>
              obtain ⟨rfl, hn⟩ := Document.indexAt?_nil_eq_some_iff.mp hat
              exact .inl ⟨rfl, hn.symm⟩
          | cons key trail =>
              obtain ⟨-, hat⟩ := Document.indexAt?_cons_eq_some_iff.mp hat
              exact .inr ((eq_one_of_isFixed h hat).imp_right (List.mem_cons_of_mem _))
      | attr other => cases trail <;> nomatch hat

theorem indexAt?_segments_of_counted? (h : template.counted? = some (trail, name)) (index : Nat) :
    indexAt? name trail (template.segments index) = some index := by
  induction template generalizing trail with
  | nil => cases h
  | cons segment rest ih =>
      rw [segments_cons]
      cases segment with
      | single other =>
          obtain ⟨⟨inner, last⟩, hrest, heq⟩ := Option.map_eq_some_iff.mp h
          obtain ⟨rfl, rfl⟩ := Prod.mk.inj heq
          rw [TemplateSegment.segment, indexAt?, if_pos rfl, ih hrest]
      | «repeated» other =>
          obtain ⟨rfl, rfl⟩ := Prod.mk.inj (Option.some.inj h)
          rw [TemplateSegment.segment, indexAt?, if_pos rfl]
      | attr other => cases h

end Path.Template

end GeoMetadata
