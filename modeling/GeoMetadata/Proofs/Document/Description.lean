import GeoMetadata.Proofs.Document.Contents
import GeoMetadata.Proofs.Path.Spelling

/-!
# Which tree a list of paths stands for

`Describes` says of a tree, in terms of the paths and values alone, that it is the one that some
assignments stand for: which elements there are, what text and attributes each has, and in which
order its children stand.  Assembly gives that tree for every list of paths that can be read and
start at the root, and refuses every other list with the fault of the first path that does not
(`assembled_or_refused`).

An element is addressed by its `Trail`, the names and indices on the way down to it.  Seen from an
element at a trail, the placements that lead through it are again placements that were written into
a new node (`eq_place_of_reaches`), so that `place_leaf` says what the element is made of.  What is
left is to say the same about the placements as seen from the root (`seenFrom`).

```text
the element      is there if a place leads to it or through it
its text         is the last value at its own place
its attributes   have the last values at theirs, in the order of the first ones
its children     stand in the order of the first places through them
```

The list may have one place several times, by one path or by several.  A path is refused for one of
two reasons (`Refused`), and those after it are not looked at.
-/

namespace GeoMetadata

namespace Document

/-- The names and indices of the elements on the way from a node to one below it. -/
abbrev Trail := List (String × Nat)

/-- The segments that lead along a trail. -/
def elements (trail : Trail) : List Segment := trail.map fun key => .element key.1 key.2

end Document

open Document (Trail elements)

/-- The inner node stands at a trail below the node. -/
inductive Node.Reaches : Node → Trail → Node → Prop
  | here (node : Node) : Reaches node [] node
  | down {node child inner : Node} {index : Nat} {trail : Trail} (hchild : child ∈ node.children)
      (hindex : child.index = index) (hinner : Reaches child trail inner) :
      Reaches node ((child.name, index) :: trail) inner

namespace Document

/-! ## The placements at an element

A trail is gone down step by step.  Each step is a child of the node, and `below` gives the
placements as seen from it. -/

/-- The placements that lead to the element at a trail or through it, as seen from there. -/
def seenFrom (trail : Trail) (placements : List Placement) : List Placement :=
  placements.filterMap fun p =>
    if (elements trail).isPrefixOf p.1 then some (p.1.drop trail.length, p.2) else none

/-- The value that is placed last at a place. -/
def lastValue? (segments : List Segment) (placements : List Placement) : Option String :=
  (placements.filterMap fun p => if p.1 = segments then some p.2 else none).getLast?

/-- The tree is the one that some placements stand for. -/
structure Describes (root : String) (placements : List Placement) (document : Node) : Prop where
  root : document.name = root ∧ document.index = 1
  /-- There are the root and the elements on the way to a place. -/
  reached : ∀ trail, (∃ node, document.Reaches trail node) ↔
    trail = [] ∨ ∃ p ∈ placements, elements trail <+: p.1
  /-- The text of an element is the last value at the element itself. -/
  text : ∀ trail node, document.Reaches trail node →
    node.text = lastValue? (elements trail) placements
  /-- The attributes of an element stand in the order in which they are first placed. -/
  attributes : ∀ trail node, document.Reaches trail node →
    node.attributes.keys =
        (((seenFrom trail placements).filterMap ownAttribute?).map Prod.fst).eraseDups ∧
      ∀ name, node.attributes.get? name =
        lastValue? (elements trail ++ [.attr name]) placements
  /-- The children of an element stand in the order of the first places through them. -/
  children : ∀ trail node, document.Reaches trail node →
    node.children.map (fun child => (child.name, child.index)) =
      (childKeys (seenFrom trail placements)).map fun key => (key.1, (key.2 : Int))

@[simp] theorem seenFrom_nil (placements : List Placement) :
    seenFrom [] placements = placements := by
  simp [seenFrom, elements]

/-- Going down a trail is going down its first step and then the others. -/
theorem seenFrom_cons (key : String × Nat) (trail : Trail) (placements : List Placement) :
    seenFrom (key :: trail) placements = seenFrom trail (below key placements) := by
  rw [seenFrom, seenFrom, below, List.filterMap_filterMap]
  refine List.filterMap_congr fun p _ => ?_
  obtain ⟨segments, value⟩ := p
  -- The first step is taken if the place begins with the same element.
  rcases segments with _ | ⟨⟨name, index⟩ | attrName, rest⟩
  · rfl
  · by_cases hkey : (name, index) = key
    · subst hkey
      simp [elements, throughChild?]
    · have hsegment : ¬ Segment.element key.1 key.2 = .element name index := by
        intro heq
        obtain ⟨hname, hindex⟩ := Segment.element.inj heq
        exact hkey (Prod.ext hname.symm hindex.symm)
      simp [elements, throughChild?, hsegment, hkey]
  · simp [elements, throughChild?]

theorem mem_seenFrom {trail : Trail} {placements : List Placement} {segments : List Segment}
    {value : String} :
    (segments, value) ∈ seenFrom trail placements ↔
      (elements trail ++ segments, value) ∈ placements := by
  induction trail generalizing placements with
  | nil => simp [elements]
  | cons key trail ih =>
      rw [seenFrom_cons, ih, mem_below]
      rfl

theorem seenFrom_ne_nil_iff {trail : Trail} {placements : List Placement} :
    seenFrom trail placements ≠ [] ↔ ∃ p ∈ placements, elements trail <+: p.1 := by
  rw [ne_eq, List.eq_nil_iff_forall_not_mem, not_forall_not]
  constructor
  · rintro ⟨⟨segments, value⟩, hmem⟩
    exact ⟨_, mem_seenFrom.mp hmem, List.prefix_append _ _⟩
  · rintro ⟨⟨whole, value⟩, hmem, segments, hwhole⟩
    refine ⟨(segments, value), mem_seenFrom.mpr ?_⟩
    rwa [hwhole]

/-- What is placed last at a place is placed last there as seen from an element on the way. -/
theorem lastValue?_append (trail : Trail) (segments : List Segment)
    (placements : List Placement) :
    lastValue? (elements trail ++ segments) placements =
      lastValue? segments (seenFrom trail placements) := by
  rw [lastValue?, lastValue?, seenFrom, List.filterMap_filterMap]
  refine congrArg List.getLast? (List.filterMap_congr fun p _ => ?_)
  have hlength : (elements trail).length = trail.length := List.length_map _
  by_cases hprefix : (elements trail).isPrefixOf p.1 = true
  · obtain ⟨rest, hrest⟩ := List.isPrefixOf_iff_prefix.mp hprefix
    have hdrop : p.1.drop trail.length = rest := by
      rw [← hrest, ← hlength, List.drop_left]
    rw [if_pos hprefix, hdrop, Option.bind_some, ← hrest]
    simp only [List.append_cancel_left_eq]
  · have hne : ¬ p.1 = elements trail ++ segments := by
      intro heq
      exact hprefix (List.isPrefixOf_iff_prefix.mpr (heq ▸ List.prefix_append _ _))
    rw [if_neg hprefix, if_neg hne, Option.bind_none]

theorem isSome_lastValue?_iff {segments : List Segment} {placements : List Placement} :
    (lastValue? segments placements).isSome = true ↔ ∃ value, (segments, value) ∈ placements := by
  rw [lastValue?, Option.isSome_iff_ne_none, ne_eq, List.getLast?_eq_none_iff,
    List.filterMap_eq_nil_iff, not_forall]
  constructor
  · rintro ⟨⟨other, value⟩, h⟩
    rw [Classical.not_imp] at h
    obtain ⟨hmem, h⟩ := h
    by_cases hother : other = segments
    · exact ⟨value, hother ▸ hmem⟩
    · exact absurd (if_neg hother) h
  · rintro ⟨value, hmem⟩
    exact ⟨(segments, value), fun h => by simpa using h hmem⟩

/-! ## The elements of a placed tree -/

variable {placements : List Placement} {name root : String} {index : Int} {trail : Trail}
  {node : Node}

theorem reaches_cons_iff {key : String × Nat} :
    (place placements (.leaf name index)).Reaches (key :: trail) node ↔
      key ∈ childKeys placements ∧ (childOf placements key).Reaches trail node := by
  have hchildren : (place placements (.leaf name index)).children =
      (childKeys placements).map (childOf placements) := by
    rw [place_leaf]
  constructor
  · intro h
    cases h with
    | @down _ child _ number _ hchild hindex hinner =>
        rw [hchildren] at hchild
        obtain ⟨other, hother, rfl⟩ := List.mem_map.mp hchild
        have hname : (childOf placements other).name = other.1 := name_place _ _
        have hnumber : ((other.2 : Nat) : Int) = number := by
          rw [← hindex]
          exact (index_place (below other placements) (.leaf other.1 other.2)).symm
        have hkey : ((childOf placements other).name, number) = other :=
          Prod.ext hname (Int.ofNat.inj hnumber).symm
        rw [hkey]
        exact ⟨hother, hinner⟩
  · rintro ⟨hkey, hinner⟩
    have hchild : childOf placements key ∈ (place placements (.leaf name index)).children := by
      rw [hchildren]
      exact List.mem_map_of_mem hkey
    have hname : (childOf placements key).name = key.1 := name_place _ _
    have hindex : (childOf placements key).index = key.2 := index_place _ _
    have hdown := Node.Reaches.down hchild hindex hinner
    rwa [hname] at hdown

/-- An element is what the placements as seen from it make of a new node. -/
theorem eq_place_of_reaches (h : (place placements (.leaf name index)).Reaches trail node) :
    node = place (seenFrom trail placements) (.leaf node.name node.index) := by
  induction trail generalizing placements name index with
  | nil =>
      cases h
      rw [name_place, index_place, seenFrom_nil]
      rfl
  | cons key trail ih =>
      obtain ⟨-, hinner⟩ := reaches_cons_iff.mp h
      rw [seenFrom_cons]
      exact ih hinner

theorem exists_reaches_iff :
    (∃ node, (place placements (.leaf name index)).Reaches trail node) ↔
      trail = [] ∨ seenFrom trail placements ≠ [] := by
  induction trail generalizing placements name index with
  | nil =>
      simp only [true_or, iff_true]
      exact ⟨_, .here _⟩
  | cons key trail ih =>
      simp only [reaches_cons_iff, exists_and_left, reduceCtorEq, false_or, seenFrom_cons]
      rw [childOf, ih]
      constructor
      · rintro ⟨hkey, rfl | hseen⟩
        · obtain ⟨⟨segments, value⟩, hmem, hhead⟩ := mem_childKeys.mp hkey
          rcases segments with _ | ⟨⟨childName, childIndex⟩ | attrName, rest⟩
          · cases hhead
          · obtain rfl := Option.some.inj hhead
            rw [seenFrom_nil]
            exact List.ne_nil_of_mem (mem_below.mpr hmem)
          · cases hhead
        · exact hseen
      · intro hseen
        have hkey : key ∈ childKeys placements := by
          by_contra hkey
          rw [below_eq_nil hkey] at hseen
          exact hseen rfl
        exact ⟨hkey, .inr hseen⟩

/-- The text of a placed node is what is placed last at the node itself. -/
theorem text_place_leaf :
    (place placements (.leaf name index)).text = lastValue? [] placements := by
  rw [place_leaf, lastValue?]
  refine congrArg List.getLast? (List.filterMap_congr fun p _ => ?_)
  obtain ⟨_ | ⟨first, rest⟩, value⟩ := p <;> rfl

theorem get?_attributes_place_leaf (hplaces : ∀ p ∈ placements, Segment.isPlace p.1 = true)
    (attrName : String) :
    (place placements (.leaf name index)).attributes.get? attrName =
      lastValue? [.attr attrName] placements := by
  rw [place_leaf, lastValue?]
  simp only [OrderedMap.get?_ofList, OrderedMap.lastInserted?, List.filterMap_filterMap]
  refine congrArg List.getLast? (List.filterMap_congr fun p hp => ?_)
  have hplace := hplaces p hp
  obtain ⟨segments, value⟩ := p
  -- An attribute stands last, so that its name says where it stands.
  rcases segments with _ | ⟨⟨childName, childIndex⟩ | other, _ | ⟨next, rest⟩⟩
  · rfl
  · rfl
  · rfl
  · by_cases hname : other = attrName <;> simp [ownAttribute?, hname]
  · cases hplace

theorem isPlace_of_mem_seenFrom (hplaces : ∀ p ∈ placements, Segment.isPlace p.1 = true) :
    ∀ p ∈ seenFrom trail placements, Segment.isPlace p.1 = true := by
  have hdrop (trail : Trail) (segments : List Segment) :
      Segment.isPlace (elements trail ++ segments) = Segment.isPlace segments := by
    induction trail with
    | nil => rfl
    | cons key trail ih => exact ih
  rintro ⟨segments, value⟩ hmem
  have hplace := hplaces _ (mem_seenFrom.mp hmem)
  rwa [hdrop] at hplace

/-- The tree that placements make of a new node is the one that they stand for. -/
theorem describes_place (hplaces : ∀ p ∈ placements, Segment.isPlace p.1 = true) :
    Describes root placements (place placements (.leaf root 1)) where
  root := ⟨name_place _ _, index_place _ _⟩
  reached trail := by rw [exists_reaches_iff, seenFrom_ne_nil_iff]
  text trail node hnode := by
    have hvalue := lastValue?_append trail [] placements
    rw [List.append_nil] at hvalue
    rw [eq_place_of_reaches hnode, text_place_leaf, hvalue]
  attributes trail node hnode := by
    refine ⟨?keys, fun attrName => ?value⟩
    case keys =>
      rw [eq_place_of_reaches hnode, place_leaf]
      exact OrderedMap.keys_ofList _
    case value =>
      rw [lastValue?_append, eq_place_of_reaches hnode]
      exact get?_attributes_place_leaf (isPlace_of_mem_seenFrom hplaces) attrName
  children trail node hnode := by
    have hchild (key : String × Nat) :
        ((childOf (seenFrom trail placements) key).name,
          (childOf (seenFrom trail placements) key).index) = (key.1, (key.2 : Int)) :=
      Prod.ext (name_place _ _) (index_place _ _)
    rw [eq_place_of_reaches hnode, place_leaf, List.map_map]
    exact List.map_congr_left fun key _ => hchild key

/-! ## Assembling -/

/-- The paths of some assignments are read, and they lead from the root to some places. -/
def Reads (root : String) (assignments : List (String × String)) (placements : List Placement) :
    Prop :=
  (assignments.map fun entry => (Path.read entry.1, entry.2)) =
    placements.map fun p => (.ok (.element root 1 :: p.1), p.2)

instance (root : String) (assignments : List (String × String)) (placements : List Placement) :
    Decidable (Reads root assignments placements) :=
  inferInstanceAs (Decidable (_ = _))

/-- Why a path is no path from the root. -/
inductive Refused (root path : String) : AssemblyFault → Prop
  | unreadable {fault : Path.Fault} (hread : Path.read path = .error fault) :
      Refused root path (.path path fault)
  | elsewhere {segments : List Segment} (hread : Path.read path = .ok segments)
      (hstart : segments.head? ≠ some (.element root 1)) :
      Refused root path (.elsewhere path root)

theorem reads_nil (root : String) : Reads root [] [] := rfl

theorem reads_cons {entry : String × String} {entries : List (String × String)}
    {segments : List Segment} (hread : Path.read entry.1 = .ok (.element root 1 :: segments))
    (hrest : Reads root entries placements) :
    Reads root (entry :: entries) ((segments, entry.2) :: placements) := by
  rw [Reads, List.map_cons, List.map_cons, hread, hrest]

theorem exists_of_reads_cons {entry : String × String} {entries : List (String × String)}
    (h : Reads root (entry :: entries) placements) :
    ∃ segments rest, placements = (segments, entry.2) :: rest ∧
      Path.read entry.1 = .ok (.element root 1 :: segments) ∧ Reads root entries rest := by
  cases placements with
  | nil => nomatch h
  | cons p rest =>
      obtain ⟨hfirst, hrest⟩ := List.cons.inj h
      obtain ⟨hread, hvalue⟩ := Prod.mk.inj hfirst
      exact ⟨p.1, rest, by rw [hvalue], hread, hrest⟩

/-- Only the last text is read as an attribute. -/
theorem isAttribute_of_readSegment {text : List Char} {segment : Segment}
    (hok : Path.readSegment false text = .ok segment) : segment.isAttribute = false := by
  rcases Path.readSegment_eq_ok_iff.mp hok with ⟨name, index, -, rfl⟩ | ⟨hlast, -⟩
  · rfl
  · cases hlast

theorem isPlace_of_readSegments {texts : List (List Char)} {segments : List Segment}
    (hok : Path.readSegments texts = .ok segments) : Segment.isPlace segments = true := by
  induction texts generalizing segments with
  | nil =>
      obtain rfl := Except.ok.inj hok
      rfl
  | cons text texts ih =>
      obtain ⟨first, hfirst, hok⟩ := bind_eq_ok_iff.mp hok
      obtain ⟨others, hothers, hok⟩ := bind_eq_ok_iff.mp hok
      obtain rfl := Except.ok.inj hok
      cases first with
      | element name index =>
          rw [Segment.isPlace]
          exact ih hothers
      | attr name =>
          -- An attribute is read from the last text only.
          cases texts with
          | nil =>
              obtain rfl := Except.ok.inj hothers
              rfl
          | cons next rest => cases isAttribute_of_readSegment hfirst

theorem isPlace_of_read {path : String} {segments : List Segment}
    (hok : Path.read path = .ok segments) : Segment.isPlace segments = true := by
  rcases Path.isPartedInto_or_form path with ⟨texts, hparts⟩ | ⟨fault, hform⟩
  · exact isPlace_of_readSegments ((Path.read_eq_readSegments hparts).symm.trans hok)
  · rw [hform] at hok
    cases hok

theorem belowRoot_eq_ok_iff {path : String} {rest : List Segment} :
    belowRoot root path = .ok rest ↔ Path.read path = .ok (.element root 1 :: rest) := by
  unfold belowRoot
  split
  · rename_i fault hread
    simp [hread]
  · rename_i first tail hread
    by_cases hname : first = root
    · simp [hread, hname]
    · simp [hread, hname]
  · rename_i segments hother hread
    have hne : ∀ tail, segments ≠ .element root 1 :: tail := by
      rintro tail rfl
      exact hother root tail rfl
    simp [hread, hne]

theorem refused_of_belowRoot {path : String} {fault : AssemblyFault}
    (h : belowRoot root path = .error fault) : Refused root path fault := by
  unfold belowRoot at h
  split at h
  · rename_i found hread
    obtain rfl := Except.error.inj h
    exact .unreadable hread
  · rename_i first tail hread
    split at h
    · nomatch h
    · rename_i hname
      obtain rfl := Except.error.inj h
      refine .elsewhere hread fun hstart => hname ?_
      simpa using hstart
  · rename_i segments hother hread
    obtain rfl := Except.error.inj h
    refine .elsewhere hread fun hstart => ?_
    obtain ⟨tail, rfl⟩ := List.head?_eq_some_iff.mp hstart
    exact hother root tail rfl

theorem Reads.exists_read {assignments : List (String × String)}
    (h : Reads root assignments placements) : ∀ entry ∈ assignments, ∃ segments,
      Path.read entry.1 = .ok (.element root 1 :: segments) := by
  intro entry hentry
  have hmem : (Path.read entry.1, entry.2) ∈ placements.map fun p =>
      ((.ok (.element root 1 :: p.1), p.2) : Except Path.Fault (List Segment) × String) := by
    rw [← h]
    exact List.mem_map_of_mem hentry
  obtain ⟨p, -, heq⟩ := List.mem_map.mp hmem
  exact ⟨p.1, (Prod.mk.inj heq).1.symm⟩

theorem foldlM_addAssignment_of_reads {assignments : List (String × String)}
    (h : Reads root assignments placements) (node : Node) :
    assignments.foldlM (addAssignment root) node = .ok (place placements node) := by
  induction assignments generalizing placements node with
  | nil =>
      obtain rfl : placements = [] := List.map_eq_nil_iff.mp h.symm
      rfl
  | cons entry entries ih =>
      obtain ⟨segments, rest, rfl, hread, hrest⟩ := exists_of_reads_cons h
      have hstep : addAssignment root node entry = .ok (assign entry.2 segments node) := by
        rw [addAssignment, belowRoot_eq_ok_iff.mpr hread]
        rfl
      rw [List.foldlM_cons, hstep]
      exact ih hrest _

theorem Reads.isPlace {assignments : List (String × String)}
    (h : Reads root assignments placements) : ∀ p ∈ placements, Segment.isPlace p.1 = true := by
  intro p hp
  have hmem : ((.ok (.element root 1 :: p.1), p.2) : Except Path.Fault (List Segment) × String) ∈
      assignments.map fun entry => (Path.read entry.1, entry.2) := by
    rw [h]
    exact List.mem_map_of_mem hp
  obtain ⟨entry, -, heq⟩ := List.mem_map.mp hmem
  have hplace := isPlace_of_read (Prod.mk.inj heq).1
  rwa [Segment.isPlace] at hplace

/-- Either all paths lead from the root, or there is a first that does not. -/
theorem exists_reads_or_refused (root : String) (assignments : List (String × String)) :
    (∃ placements, Reads root assignments placements) ∨
      ∃ before path value after fault, assignments = before ++ (path, value) :: after ∧
        (∃ placements, Reads root before placements) ∧ belowRoot root path = .error fault := by
  induction assignments with
  | nil => exact .inl ⟨[], reads_nil root⟩
  | cons entry rest ih =>
      obtain ⟨path, value⟩ := entry
      cases hbelow : belowRoot root path with
      | error fault => exact .inr ⟨[], path, value, rest, fault, rfl, ⟨[], reads_nil root⟩, hbelow⟩
      | ok segments =>
          have hread := belowRoot_eq_ok_iff.mp hbelow
          rcases ih with ⟨placements, hplacements⟩ |
            ⟨before, other, text, after, fault, rfl, ⟨placements, hplacements⟩, hfault⟩
          · exact .inl ⟨_, reads_cons hread hplacements⟩
          · exact .inr ⟨(path, value) :: before, other, text, after, fault, rfl,
              ⟨_, reads_cons hread hplacements⟩, hfault⟩

/-- If all paths of some assignments can be read and start at the root, assembly gives the tree that
they stand for. Otherwise it gives the fault of the first path that does not. -/
theorem assembled_or_refused (root : String) (assignments : List (String × String)) :
    (∀ placements, Reads root assignments placements →
      ∃ document, assemble root assignments = .ok document ∧
        Describes root placements document) ∧
    ((∀ placements, ¬ Reads root assignments placements) →
      ∃ before path value after fault, assignments = before ++ (path, value) :: after ∧
        (∃ placements, Reads root before placements) ∧ Refused root path fault ∧
        assemble root assignments = .error fault) := by
  constructor
  · intro placements h
    exact ⟨_, foldlM_addAssignment_of_reads h _, describes_place h.isPlace⟩
  · intro hnone
    rcases exists_reads_or_refused root assignments with ⟨placements, h⟩ |
      ⟨before, path, value, after, fault, rfl, ⟨placements, h⟩, hfault⟩
    · exact absurd h (hnone placements)
    · refine ⟨before, path, value, after, fault, rfl, ⟨placements, h⟩,
        refused_of_belowRoot hfault, ?_⟩
      -- The paths before the first fault are assembled, and the fault ends the assembly.
      rw [assemble, List.foldlM_append, foldlM_addAssignment_of_reads h]
      show List.foldlM (addAssignment root) _ ((path, value) :: after) = .error fault
      rw [List.foldlM_cons, addAssignment, hfault]
      rfl

/-- Two spellings of one place, an attribute, and siblings out of their order. -/
def sampleAssignments : List (String × String) :=
  [("/r/a[2]/@k", "1"), ("/r/b", "2"), ("/r/a[2]", "3"), ("/r/a", "4"), ("/r/a[02]", "5")]

/-- The places of the sample. -/
def samplePlacements : List Placement :=
  [([.element "a" 2, .attr "k"], "1"), ([.element "b" 1], "2"), ([.element "a" 2], "3"),
    ([.element "a" 1], "4"), ([.element "a" 2], "5")]

theorem sample_assembled_or_refused :
    (Reads "r" sampleAssignments samplePlacements ∧
      ∃ document, assemble "r" sampleAssignments = .ok document ∧
        Describes "r" samplePlacements document) ∧
    ((∀ placements, ¬ Reads "r" (sampleAssignments ++ [("/s/a", "6")]) placements) ∧
      ∃ before path value after fault,
        sampleAssignments ++ [("/s/a", "6")] = before ++ (path, value) :: after ∧
        (∃ placements, Reads "r" before placements) ∧ Refused "r" path fault ∧
        assemble "r" (sampleAssignments ++ [("/s/a", "6")]) = .error fault) := by
  have hreads : Reads "r" sampleAssignments samplePlacements := by decide +kernel
  have hnone : ∀ placements, ¬ Reads "r" (sampleAssignments ++ [("/s/a", "6")]) placements := by
    intro placements h
    have hlast : (Path.read "/s/a", "6") ∈
        (sampleAssignments ++ [("/s/a", "6")]).map fun entry => (Path.read entry.1, entry.2) :=
      List.mem_map.mpr ⟨("/s/a", "6"), by simp, rfl⟩
    rw [h] at hlast
    obtain ⟨p, -, hp⟩ := List.mem_map.mp hlast
    have hread : Path.read "/s/a" = .ok [.element "s" 1, .element "a" 1] := by decide +kernel
    simp [hread] at hp
  exact ⟨⟨hreads, (assembled_or_refused "r" sampleAssignments).1 samplePlacements hreads⟩,
    hnone, (assembled_or_refused "r" (sampleAssignments ++ [("/s/a", "6")])).2 hnone⟩

end Document

end GeoMetadata
