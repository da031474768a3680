import GeoMetadata.Proofs.Document.Numbering

/-!
# Siblings of one name

The children of one name below the element at an address are told by the places that lead there: one
child for each index that they have, in the order of the first place of each, and each child is what
the places make of it as seen from there (`childrenAt_place`).  The way down goes by the steps of
the address: a child is found if and only if a place leads through it (`findChild?_place`).

Elements that are written one after the other are described by rounds: each round is what is seen
from one of the elements (`seenFrom_rounds`).  `roundAt` numbers the rounds from some first number
on, so that rounds which go on from others are a matter of adding lengths (`roundAt_append`), and
passes over the same items make up one round for each (`roundAt_map_append`).
-/

namespace GeoMetadata

open Document (Trail seenFrom)

/-- The address that a trail is. -/
def Document.Trail.address (trail : Trail) : Node.Address :=
  trail.map fun key => (key.1, (key.2 : Int))

/-- The children of some name of the element at an address, if there is one. -/
def Node.childrenAt (node : Node) (address : Address) (name : String) : List Node :=
  (node.at? address).elim [] fun parent => parent.childrenNamed name

namespace Document

variable {placements : List Placement} {name root : String} {index : Int} {trail : Trail}

theorem seenFrom_eq_nil (h : ∀ p ∈ placements, ¬elements trail <+: p.1) :
    seenFrom trail placements = [] := by
  by_contra hne
  obtain ⟨p, hp, hprefix⟩ := seenFrom_ne_nil_iff.mp hne
  exact h p hp hprefix

theorem seenFrom_append (trail : Trail) (before after : List Placement) :
    seenFrom trail (before ++ after) = seenFrom trail before ++ seenFrom trail after :=
  List.filterMap_append

/-- A place has an index at an element if it leads through the element with that index. -/
theorem indexAt?_eq_some_iff {n : Nat} {segments : List Segment} :
    indexAt? name trail segments = some n ↔
      elements (trail ++ [((name, n) : String × Nat)]) <+: segments := by
  induction trail generalizing segments with
  | nil =>
      rcases segments with _ | ⟨⟨other, number⟩ | attrName, rest⟩
      · simp [indexAt?, elements]
      · rw [indexAt?_nil_eq_some_iff]
        simp [elements, eq_comm]
      · simp [indexAt?, elements]
  | cons key trail ih =>
      rcases segments with _ | ⟨⟨other, number⟩ | attrName, rest⟩
      · simp [indexAt?, elements]
      · rw [indexAt?_cons_eq_some_iff, ih]
        simp [elements, Prod.ext_iff, eq_comm]
      · simp [indexAt?, elements]

/-- What leads through one child is seen from that child alone. -/
theorem seenFrom_map_append {k : Nat} (name : String) (trail : Trail) (placements : List Placement)
    (n : Nat) :
    seenFrom (trail ++ [((name, n) : String × Nat)])
        (placements.map fun p => (elements (trail ++ [((name, k) : String × Nat)]) ++ p.1, p.2)) =
      if k = n then placements else [] := by
  split
  · rename_i hsame
    subst hsame
    rw [seenFrom, List.filterMap_map]
    refine (List.filterMap_congr fun p _ => ?_).trans List.filterMap_some
    have hlength : (trail ++ [((name, k) : String × Nat)]).length =
        (elements (trail ++ [((name, k) : String × Nat)])).length := (List.length_map _).symm
    rw [Function.comp_apply, if_pos (List.isPrefixOf_iff_prefix.mpr (List.prefix_append _ _)), hlength,
      List.drop_left]
  · rename_i hother
    refine seenFrom_eq_nil (List.forall_mem_map.mpr fun p _ hprefix => hother ?_)
    rw [elements, elements, List.map_append, List.map_append, List.append_assoc,
      List.prefix_append_right_inj, List.map_singleton, List.map_singleton, List.singleton_append,
      List.cons_prefix_cons] at hprefix
    exact (Segment.element.inj hprefix.1).2.symm

/-- A child is found if and only if a place leads through it. -/
theorem findChild?_place (key : String × Nat) :
    (place placements (.leaf root index)).findChild? key.1 key.2 =
      if key ∈ childKeys placements then some (childOf placements key) else none := by
  have hanswers : (fun child : Node => child.answersTo key.1 key.2) ∘ childOf placements =
      fun other => decide (other = key) := by
    funext other
    rw [Function.comp_apply, Bool.eq_iff_iff, answersTo_iff, decide_eq_true_iff, childOf, name_place,
      index_place]
    exact ⟨fun h => Prod.ext h.1 (Int.ofNat.inj h.2), fun h => h ▸ ⟨rfl, rfl⟩⟩
  rw [Node.findChild?, place_leaf, List.find?_map, hanswers]
  cases hfind : (childKeys placements).find? fun other => decide (other = key) with
  | none =>
      have hkey : key ∉ childKeys placements := fun hkey =>
        List.find?_eq_none.mp hfind key hkey (decide_eq_true rfl)
      rw [if_neg hkey, Option.map_none]
  | some other =>
      have hother := List.find?_some hfind
      obtain rfl : other = key := of_decide_eq_true hother
      rw [if_pos (List.mem_of_find?_eq_some hfind), Option.map_some]

theorem filter_map_childOf (name : String) (placements : List Placement) :
    ((childKeys placements).map (childOf placements)).filter (fun child => child.name = name) =
      ((childKeys placements).filter fun key => key.1 = name).map (childOf placements) := by
  have hnamed : (fun child : Node => decide (child.name = name)) ∘ childOf placements =
      fun key => decide (key.1 = name) := by
    funext key
    rw [Function.comp_apply, childOf, name_place]
    rfl
  rw [List.filter_map, hnamed]

/-- The children of some name below an element are those that the places lead through. -/
theorem childrenAt_place_eq_map_childOf :
    (place placements (.leaf root index)).childrenAt trail.address name =
      ((childKeys (seenFrom trail placements)).filter fun key => key.1 = name).map
        (childOf (seenFrom trail placements)) := by
  -- Down the trail: the child of each step is there if a place leads through it.
  induction trail generalizing placements root index with
  | nil =>
      rw [seenFrom_nil, Node.childrenAt, Trail.address, List.map_nil, Node.at?, Option.elim_some,
        Node.childrenNamed, place_leaf, filter_map_childOf]
  | cons key trail ih =>
      have hfind := @findChild?_place placements root index key
      rw [Node.childrenAt, Trail.address, List.map_cons, Node.at?, hfind, seenFrom_cons]
      by_cases hkey : key ∈ childKeys placements
      · rw [if_pos hkey, Option.bind_some]
        exact ih
      · have hnone : seenFrom trail [] = [] := rfl
        rw [if_neg hkey, below_eq_nil hkey, hnone]
        rfl

theorem filter_childKeys_seenFrom :
    ((childKeys (seenFrom trail placements)).filter fun key => key.1 = name) =
      (placements.filterMap fun p => indexAt? name trail p.1).eraseDups.map fun n => (name, n) := by
  have hindices := @indicesOf_place_seenFrom placements name 1 trail name
  rw [Node.indicesOf, Node.childrenNamed, place_leaf, filter_map_childOf, List.map_map] at hindices
  -- The tree has integers for indices, the places have natural numbers.
  have hnumbers : ((childKeys (seenFrom trail placements)).filter fun key => key.1 = name).map
      Prod.snd = (placements.filterMap fun p => indexAt? name trail p.1).eraseDups := by
    refine List.map_injective_iff.mpr (fun n m => Int.ofNat.inj) ?_
    rw [List.map_map]
    refine Eq.trans (List.map_congr_left fun key _ => ?_) hindices
    exact (index_place (below key (seenFrom trail placements)) (.leaf key.1 key.2)).symm
  rw [← hnumbers, List.map_map]
  refine (List.map_id _).symm.trans (List.map_congr_left fun key hkey => ?_)
  exact Prod.ext (of_decide_eq_true (List.mem_filter.mp hkey).2) rfl

/-- The children of some name below an element, one for each index that the places have there. -/
theorem childrenAt_place :
    (place placements (.leaf root index)).childrenAt (Trail.address trail) name =
      (placements.filterMap fun p => indexAt? name trail p.1).eraseDups.map fun n =>
        place (seenFrom (trail ++ [((name, n) : String × Nat)]) placements) (.leaf name n) := by
  rw [childrenAt_place_eq_map_childOf, filter_childKeys_seenFrom, List.map_map]
  exact List.map_congr_left fun n _ => by rw [Function.comp_apply, childOf, below_seenFrom]

/-! ## Rounds -/

/-- The round with some number, where the rounds are numbered one after the other from a first
number on, or nothing if there is no such round. -/
def roundAt (first : Nat) (rounds : List (List Placement)) (n : Nat) : List Placement :=
  if first ≤ n then (rounds[n - first]?).getD [] else []

variable {rounds : List (List Placement)} {first n : Nat}

theorem roundAt_cons (round : List Placement) :
    roundAt first (round :: rounds) n = if first = n then round else roundAt (first + 1) rounds n := by
  rw [roundAt, roundAt]
  rcases Nat.lt_trichotomy first n with hlt | rfl | hgt
  · have hnext : n - first = n - (first + 1) + 1 := by omega
    rw [if_pos hlt.le, if_neg hlt.ne, if_pos (Nat.succ_le_of_lt hlt), hnext, List.getElem?_cons_succ]
  · rw [if_pos le_rfl, if_pos rfl, Nat.sub_self, List.getElem?_cons_zero, Option.getD_some]
  · rw [if_neg (by omega), if_neg (by omega), if_neg (by omega)]

theorem roundAt_of_lt (h : n < first) : roundAt first rounds n = [] := if_neg (by omega)

/-- More rounds are numbered on. -/
theorem roundAt_append (before after : List (List Placement)) :
    roundAt first (before ++ after) n =
      roundAt first before n ++ roundAt (first + before.length) after n := by
  induction before generalizing first with
  | nil => simp [roundAt]
  | cons round rest ih =>
      rw [List.cons_append, roundAt_cons, roundAt_cons, List.length_cons]
      split
      · rw [roundAt_of_lt (by omega), List.append_nil]
      · rw [ih, Nat.add_assoc, Nat.add_comm 1]

/-- Two passes over the same items make up one round for each. -/
theorem roundAt_map_append {α : Type} (items : List α) (f g : α → List Placement) :
    roundAt first (items.map f) n ++ roundAt first (items.map g) n =
      roundAt first (items.map fun item => f item ++ g item) n := by
  simp only [roundAt, List.getElem?_map]
  split
  · cases items[n - first]? <;> rfl
  · rfl

theorem roundAt_of_mem_zipIdx {round : List Placement} (h : (round, n) ∈ rounds.zipIdx first) :
    roundAt first rounds n = round := by
  obtain ⟨hle, hround⟩ := List.mem_zipIdx_iff_le_and_getElem?_sub.mp h
  rw [roundAt, if_pos hle, hround, Option.getD_some]

theorem roundAt_ne_nil_iff (hrounds : [] ∉ rounds) :
    roundAt first rounds n ≠ [] ↔ n ∈ List.range' first rounds.length := by
  rw [List.mem_range'_1, roundAt]
  by_cases hle : first ≤ n
  · rw [if_pos hle]
    by_cases hlt : n - first < rounds.length
    · rw [List.getElem?_eq_getElem hlt, Option.getD_some]
      refine iff_of_true (fun hnil => hrounds (hnil ▸ List.getElem_mem hlt)) ⟨hle, by omega⟩
    · rw [List.getElem?_eq_none (by omega), Option.getD_none]
      exact iff_of_false (fun h => h rfl) (by omega)
  · rw [if_neg hle]
    exact iff_of_false (fun h => h rfl) fun h => hle h.1

/-- Of rounds that are written one after the other, an element has the one with its index. -/
theorem seenFrom_rounds (name : String) (trail : Trail) (rounds : List (List Placement))
    (first n : Nat) :
    seenFrom (trail ++ [((name, n) : String × Nat)])
        ((rounds.zipIdx first).flatMap fun entry => entry.1.map fun p =>
          (elements (trail ++ [((name, entry.2) : String × Nat)]) ++ p.1, p.2)) =
      roundAt first rounds n := by
  induction rounds generalizing first with
  | nil => simp [roundAt, seenFrom]
  | cons round rest ih =>
      rw [List.zipIdx_cons, List.flatMap_cons, seenFrom_append, seenFrom_map_append, ih, roundAt_cons]
      -- Later rounds have greater numbers, so that nothing is added to this one.
      split
      · rw [roundAt_of_lt (by omega), List.append_nil]
      · rw [List.nil_append]

end Document

end GeoMetadata
