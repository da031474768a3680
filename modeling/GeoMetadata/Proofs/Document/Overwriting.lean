import GeoMetadata.Assignments
import GeoMetadata.Proofs.Document.Description

/-!
# Overwriting leaves no trace

Assignments are kept in the slots of their paths' first assignment, each with its last value, and
the document is assembled from these.  The same document comes from assembling all that was ever
assigned, in order (`assemble_entries_ofList`): there the later value is written over the earlier
one in the tree.

```text
assigned    /r/a 1    /r/b 2    /r/a 3
kept        /r/a 3    /r/b 2
```

The reason is that writing a value where one already stands can be moved to the front.  It does not
matter whether it comes before or after a write at another place (`assign_comm`), and of two writes
at one place the second decides alone (`assign_assign`).  So the last value can as well be written
in the slot of the first (`place_overwrite`).

All this is about places, and the slots are those of paths.  Two paths that are read as one place
have two slots, and then the value that is assigned last need not be the one in the later slot; so
different paths are asked to be different places.
-/

namespace GeoMetadata

/-! ## Maps

Attributes are kept in a map, where the same holds as is shown of nodes below: the second value
stays, in the slot of the first. -/

section OrderedMap

variable {κ ν : Type} [DecidableEq κ] {key other : κ}

theorem insertEntry_insertEntry (first second : ν) (entries : List (κ × ν)) :
    insertEntry key second (insertEntry key first entries) = insertEntry key second entries := by
  induction entries with
  | nil => simp [insertEntry]
  | cons entry rest ih =>
      by_cases hkey : entry.1 = key
      · simp [insertEntry, hkey]
      · simp [insertEntry, hkey, ih]

/-- The slot of a key that is present does not depend on other keys. -/
theorem insertEntry_comm (hne : key ≠ other) (value text : ν) {entries : List (κ × ν)}
    (hmem : key ∈ entries.map Prod.fst) :
    insertEntry key value (insertEntry other text entries) =
      insertEntry other text (insertEntry key value entries) := by
  induction entries with
  | nil => nomatch hmem
  | cons entry rest ih =>
      by_cases hkey : entry.1 = key
      · have hother : ¬ entry.1 = other := fun h => hne (hkey.symm.trans h)
        simp [insertEntry, hkey, hne]
      · rw [List.map_cons, List.mem_cons] at hmem
        have hrest := hmem.resolve_left (Ne.symm hkey)
        by_cases hother : entry.1 = other
        · simp [insertEntry, hother, Ne.symm hne]
        · simp [insertEntry, hkey, hother, ih hrest]

/-- A key that is present is overwritten in its slot. -/
theorem exists_insertEntry_eq {entries : List (κ × ν)} (hnodup : (entries.map Prod.fst).Nodup)
    (hmem : key ∈ entries.map Prod.fst) (value : ν) :
    ∃ before old after, entries = before ++ (key, old) :: after ∧ key ∉ after.map Prod.fst ∧
      insertEntry key value entries = before ++ (key, value) :: after := by
  induction entries with
  | nil => nomatch hmem
  | cons entry rest ih =>
      obtain ⟨hfresh, hrest⟩ := List.nodup_cons.mp hnodup
      by_cases hkey : entry.1 = key
      · subst hkey
        exact ⟨[], entry.2, rest, rfl, hfresh, by simp [insertEntry]⟩
      · rw [List.map_cons, List.mem_cons] at hmem
        obtain ⟨before, old, after, heq, hafter, hinsert⟩ :=
          ih hrest (hmem.resolve_left (Ne.symm hkey))
        refine ⟨entry :: before, old, after, by rw [heq]; rfl, hafter, ?_⟩
        rw [insertEntry, if_neg hkey, hinsert]
        rfl

omit [DecidableEq κ] in
theorem OrderedMap.ext_entries {m n : OrderedMap κ ν} (h : m.entries = n.entries) : m = n := by
  cases m
  cases n
  congr

theorem insert_insert (m : OrderedMap κ ν) (first second : ν) :
    (m.insert key first).insert key second = m.insert key second :=
  OrderedMap.ext_entries (insertEntry_insertEntry first second m.entries)

theorem insert_comm {m : OrderedMap κ ν} (hne : key ≠ other) (value text : ν)
    (hsome : (m.get? key).isSome = true) :
    (m.insert other text).insert key value = (m.insert key value).insert other text := by
  refine OrderedMap.ext_entries (insertEntry_comm hne value text ?_)
  obtain ⟨found, hfound⟩ := Option.isSome_iff_exists.mp hsome
  exact List.mem_map_of_mem (f := Prod.fst) (mem_of_entryValue?_eq_some hfound)

end OrderedMap

/-! ## Children

A child is changed where it is found.  Two changes of one child are one change, and changes of
different children can be exchanged if one of the two is there already.  If neither is, they are
appended in the order of the changes. -/

/-- The change keeps the name and the index of a node. -/
structure Node.KeepsKey (change : Node → Node) : Prop where
  name : ∀ node, (change node).name = node.name
  index : ∀ node, (change node).index = node.index

namespace Document

variable {change after : Node → Node} {name other : String} {index number : Int}
  {nodes : List Node}

theorem keepsKey_assign (value : String) (segments : List Segment) :
    Node.KeepsKey (assign value segments) :=
  ⟨name_assign value segments, index_assign value segments⟩

theorem answersTo_change (h : Node.KeepsKey change) (node : Node) :
    (change node).answersTo name index = node.answersTo name index :=
  answersTo_eq (h.name node) (h.index node) name index

theorem changeFirst_changeFirst (h : Node.KeepsKey change) :
    Node.changeFirst name index after (Node.changeFirst name index change nodes) =
      Node.changeFirst name index (after ∘ change) nodes := by
  induction nodes with
  | nil =>
      have hleaf : (change (.leaf name index)).answersTo name index = true := by
        rw [answersTo_change h]
        exact answersTo_leaf.mpr rfl
      simp [Node.changeFirst, hleaf]
  | cons node rest ih =>
      by_cases hfirst : node.answersTo name index = true
      · simp [Node.changeFirst, hfirst, answersTo_change h]
      · simp [Node.changeFirst, hfirst, ih]

/-- Only the first node of the name and index is changed. -/
theorem changeFirst_congr {found : Node}
    (hfound : nodes.find? (·.answersTo name index) = some found)
    (hsame : change found = after found) :
    Node.changeFirst name index change nodes = Node.changeFirst name index after nodes := by
  induction nodes with
  | nil => nomatch hfound
  | cons node rest ih =>
      by_cases hfirst : node.answersTo name index = true
      · rw [List.find?_cons, hfirst] at hfound
        obtain rfl := Option.some.inj hfound
        simp [Node.changeFirst, hfirst, hsame]
      · rw [List.find?_cons, Bool.eq_false_iff.mpr hfirst] at hfound
        simp [Node.changeFirst, hfirst, ih hfound]

/-- A node that is present can be changed before or after another. -/
theorem changeFirst_comm (hchange : Node.KeepsKey change) (hafter : Node.KeepsKey after)
    (hne : ¬ (name, index) = (other, number)) {found : Node}
    (hfound : nodes.find? (·.answersTo name index) = some found) :
    Node.changeFirst name index change (Node.changeFirst other number after nodes) =
      Node.changeFirst other number after (Node.changeFirst name index change nodes) := by
  induction nodes with
  | nil => nomatch hfound
  | cons node rest ih =>
      by_cases hfirst : node.answersTo name index = true
      · have hother : ¬ node.answersTo other number = true := by
          intro hother
          obtain ⟨hname, hindex⟩ := answersTo_iff.mp hfirst
          obtain ⟨hname', hindex'⟩ := answersTo_iff.mp hother
          exact hne (Prod.ext (hname.symm.trans hname') (hindex.symm.trans hindex'))
        simp [Node.changeFirst, hfirst, hother, answersTo_change hchange]
      · rw [List.find?_cons, Bool.eq_false_iff.mpr hfirst] at hfound
        by_cases hother : node.answersTo other number = true
        · simp [Node.changeFirst, hfirst, hother, answersTo_change hafter]
        · simp [Node.changeFirst, hfirst, hother, ih hfound]

/-! ## Writing over a value -/

/-- Of two values that are written at one place, the second stays. -/
theorem assign_assign (first second : String) (segments : List Segment) (node : Node) :
    assign second segments (assign first segments node) = assign second segments node := by
  induction segments generalizing node with
  | nil => rfl
  | cons segment rest ih =>
      cases segment with
      | element name index =>
          have hcompose : assign second rest ∘ assign first rest = assign second rest :=
            funext fun child => ih child
          simp only [assign, Node.changeChild, changeFirst_changeFirst (keepsKey_assign first rest),
            hcompose]
      | attr name => simp only [assign, Node.withAttribute, insert_insert]

/-- A value that stands somewhere can be overwritten before or after a write at another place. -/
theorem assign_comm {segments others : List Segment}
    (hsegments : Segment.isPlace segments = true) (hothers : Segment.isPlace others = true)
    (hne : segments ≠ others) (value text : String) {node : Node}
    (hsome : (node.valueAt? segments).isSome = true) :
    assign value segments (assign text others node) =
      assign text others (assign value segments node) := by
  -- Down both places until they part, as they do somewhere because they differ.
  induction segments generalizing others node with
  | nil =>
      rcases others with _ | ⟨⟨name, index⟩ | attrName, rest⟩
      · exact absurd rfl hne
      · rfl
      · rfl
  | cons segment rest ih =>
      cases segment with
      | element name index =>
          rcases others with _ | ⟨⟨other, number⟩ | attrName, tail⟩
          · rfl
          · rw [Node.valueAt?, Node.findChild?] at hsome
            obtain ⟨child, hchild⟩ : ∃ child,
                node.children.find? (·.answersTo name index) = some child := by
              cases hfind : node.children.find? (·.answersTo name index) with
              | none => simp [hfind] at hsome
              | some child => exact ⟨child, rfl⟩
            rw [hchild, Option.bind_some] at hsome
            simp only [assign, Node.changeChild]
            congr 1
            by_cases hkey : (name, (index : Int)) = (other, (number : Int))
            · -- Both places lie in one child, so that they differ below it.
              obtain ⟨rfl, hindex⟩ := Prod.mk.inj hkey
              obtain rfl := Int.ofNat.inj hindex
              have hrest : rest ≠ tail := by
                rintro rfl
                exact hne rfl
              rw [Segment.isPlace] at hsegments hothers
              have hinner := ih hsegments hothers hrest hsome
              rw [changeFirst_changeFirst (keepsKey_assign text tail),
                changeFirst_changeFirst (keepsKey_assign value rest)]
              exact changeFirst_congr hchild hinner
            · exact changeFirst_comm (keepsKey_assign value rest) (keepsKey_assign text tail) hkey
                hchild
          · rfl
      | attr name =>
          rcases others with _ | ⟨⟨other, number⟩ | attrName, tail⟩
          · rfl
          · rfl
          · have hdiffer : name ≠ attrName := by
              rintro rfl
              cases rest with
              | cons next others => cases hsegments
              | nil => cases tail with
                | cons next others => cases hothers
                | nil => exact hne rfl
            simp only [assign, Node.withAttribute, insert_comm hdiffer value text hsome]

theorem place_append (before after : List Placement) (node : Node) :
    place (before ++ after) node = place after (place before node) := List.foldl_append

theorem valueAt?_place_of_not_mem {segments : List Segment} {placements : List Placement}
    (hsegments : Segment.isPlace segments = true)
    (hplaces : ∀ p ∈ placements, Segment.isPlace p.1 = true)
    (hfresh : segments ∉ placements.map Prod.fst) (node : Node) :
    (place placements node).valueAt? segments = node.valueAt? segments := by
  induction placements generalizing node with
  | nil => rfl
  | cons p rest ih =>
      obtain ⟨hp, hrest⟩ := List.forall_mem_cons.mp hplaces
      rw [List.map_cons, List.mem_cons, not_or] at hfresh
      have hstep : (assign p.2 p.1 node).valueAt? segments = node.valueAt? segments := by
        rw [valueAt?_assign hp hsegments, if_neg (Ne.symm hfresh.1)]
      exact (ih hrest hfresh.2 _).trans hstep

/-- A later value may as well be written in the slot of the earlier one. -/
theorem place_overwrite {segments : List Segment} {before after : List Placement}
    (hsegments : Segment.isPlace segments = true)
    (hplaces : ∀ p ∈ after, Segment.isPlace p.1 = true)
    (hfresh : segments ∉ after.map Prod.fst) (old value : String) (node : Node) :
    assign value segments (place (before ++ (segments, old) :: after) node) =
      place (before ++ (segments, value) :: after) node := by
  -- The write goes back over those after the slot, the last of them first.
  have hmove (start : Node) :
      assign value segments (place after (assign old segments start)) =
        place after (assign value segments start) := by
    induction after using List.reverseRecOn with
    | nil => exact assign_assign old value segments start
    | append_singleton after last ih =>
        rw [List.map_append, List.map_singleton, List.mem_append, List.mem_singleton,
          not_or] at hfresh
        rw [List.forall_mem_append, List.forall_mem_singleton] at hplaces
        have hstands :
            ((place after (assign old segments start)).valueAt? segments).isSome = true := by
          rw [valueAt?_place_of_not_mem hsegments hplaces.1 hfresh.1,
            valueAt?_assign hsegments hsegments, if_pos rfl]
          rfl
        rw [place_concat, place_concat, ← ih hplaces.1 hfresh.1]
        exact assign_comm hsegments hplaces.2 hfresh.2 value last.2 hstands
  rw [place_append, place_append]
  exact hmove (place before node)

/-! ## Assignments -/

/-- The map of some entries makes the same of a node as the entries one after the other, if
different keys stand for different places. -/
theorem place_entries_ofList {entries : List (String × String)} {locate : String → List Segment}
    (hplaces : ∀ entry ∈ entries, Segment.isPlace (locate entry.1) = true)
    (hdistinct : ∀ first ∈ entries, ∀ second ∈ entries,
      locate first.1 = locate second.1 → first.1 = second.1) (node : Node) :
    place ((OrderedMap.ofList entries).entries.map fun entry => (locate entry.1, entry.2)) node =
      place (entries.map fun entry => (locate entry.1, entry.2)) node := by
  induction entries using List.reverseRecOn with
  | nil => rfl
  | append_singleton entries last ih =>
      rw [List.forall_mem_append, List.forall_mem_singleton] at hplaces
      have hearlier := ih hplaces.1 fun first hfirst second hsecond =>
        hdistinct first (List.mem_append_left _ hfirst) second (List.mem_append_left _ hsecond)
      have hmap : (OrderedMap.ofList (entries ++ [last])).entries =
          insertEntry last.1 last.2 (OrderedMap.ofList entries).entries := by
        rw [OrderedMap.ofList_concat]
        rfl
      rw [hmap, List.map_append, List.map_singleton, place_concat, ← hearlier]
      by_cases hkey : last.1 ∈ (OrderedMap.ofList entries).entries.map Prod.fst
      · -- The key has a slot, and what stands after it are other places.
        obtain ⟨before, old, after, heq, hafter, hinsert⟩ :=
          exists_insertEntry_eq (OrderedMap.ofList entries).nodup hkey last.2
        have hmem : ∀ entry ∈ after, entry ∈ entries := by
          intro entry hentry
          refine OrderedMap.mem_of_mem_entries_ofList ?_
          rw [heq]
          exact List.mem_append_right _ (List.mem_cons_of_mem _ hentry)
        have hfresh : locate last.1 ∉
            (after.map fun entry => (locate entry.1, entry.2)).map Prod.fst := by
          rw [List.map_map]
          intro hlocated
          obtain ⟨entry, hentry, hsame⟩ := List.mem_map.mp hlocated
          have hpath := hdistinct entry (List.mem_append_left _ (hmem entry hentry)) last
            (List.mem_append_right _ (List.mem_singleton_self last)) hsame
          exact hafter (hpath ▸ List.mem_map_of_mem hentry)
        have hplaced : ∀ p ∈ after.map fun entry => (locate entry.1, entry.2),
            Segment.isPlace p.1 = true := by
          rw [List.forall_mem_map]
          exact fun entry hentry => hplaces.1 entry (hmem entry hentry)
        rw [hinsert, heq, List.map_append, List.map_append, List.map_cons, List.map_cons]
        exact (place_overwrite hplaces.2 hplaced hfresh old last.2 node).symm
      · rw [insertEntry_of_not_mem hkey, List.map_append, List.map_singleton, place_concat]

/-- The place below the root that a path leads to. -/
def locate (root path : String) : List Segment :=
  match belowRoot root path with
  | .ok segments => segments
  | .error _ => []

theorem read_eq_locate {root path : String}
    (hread : ∃ segments, Path.read path = .ok (.element root 1 :: segments)) :
    Path.read path = .ok (.element root 1 :: locate root path) := by
  obtain ⟨segments, hread⟩ := hread
  rw [locate, belowRoot_eq_ok_iff.mpr hread, hread]

theorem reads_locate {root : String} {entries : List (String × String)}
    (hread : ∀ entry ∈ entries, ∃ segments,
      Path.read entry.1 = .ok (.element root 1 :: segments)) :
    Reads root entries (entries.map fun entry => (locate root entry.1, entry.2)) := by
  rw [Reads, List.map_map]
  exact List.map_congr_left fun entry hentry => Prod.ext (read_eq_locate (hread entry hentry)) rfl

/-- If different paths are read as different places, then the document of the assignments that are
kept is the document of all that was assigned. -/
theorem assemble_entries_ofList {root : String} {added : List (String × String)}
    (hread : ∀ entry ∈ added, ∃ segments, Path.read entry.1 = .ok (.element root 1 :: segments))
    (hdistinct : ∀ first ∈ added, ∀ second ∈ added,
      Path.read first.1 = Path.read second.1 → first.1 = second.1) :
    ∃ document, assemble root added = .ok document ∧
      assemble root (OrderedMap.ofList added : Assignments).entries = .ok document := by
  have hkept : ∀ entry ∈ (OrderedMap.ofList added : Assignments).entries, ∃ segments,
      Path.read entry.1 = .ok (.element root 1 :: segments) :=
    fun entry hentry => hread entry (OrderedMap.mem_of_mem_entries_ofList hentry)
  have hplaces : ∀ entry ∈ added, Segment.isPlace (locate root entry.1) = true := by
    intro entry hentry
    have hplace := isPlace_of_read (read_eq_locate (hread entry hentry))
    rwa [Segment.isPlace] at hplace
  have hsame := place_entries_ofList hplaces (fun first hfirst second hsecond heq =>
    hdistinct first hfirst second hsecond <| by
      rw [read_eq_locate (hread first hfirst), read_eq_locate (hread second hsecond), heq])
    (.leaf root 1)
  refine ⟨_, foldlM_addAssignment_of_reads (reads_locate hread) _, ?_⟩
  rw [← hsame]
  exact foldlM_addAssignment_of_reads (reads_locate hkept) _

/-- A text and an attribute that are assigned anew, between siblings below one parent. -/
def sampleOverwriting : List (String × String) :=
  [("/r/a/b[2]", "1"), ("/r/a/@k", "2"), ("/r/c", "3"), ("/r/a/b[1]", "4"), ("/r/a/b[2]", "5"),
    ("/r/a/@m", "6"), ("/r/a/@k", "7"), ("/r/c/d", "8")]

theorem sample_assemble_entries_ofList :
    (∀ entry ∈ sampleOverwriting, ∃ segments,
      Path.read entry.1 = .ok (.element "r" 1 :: segments)) ∧
    (∀ first ∈ sampleOverwriting, ∀ second ∈ sampleOverwriting,
      Path.read first.1 = Path.read second.1 → first.1 = second.1) ∧
    ∃ document, assemble "r" sampleOverwriting = .ok document ∧
      assemble "r" (OrderedMap.ofList sampleOverwriting : Assignments).entries =
        .ok document := by
  have hread : ∀ entry ∈ sampleOverwriting, ∃ segments,
      Path.read entry.1 = .ok (.element "r" 1 :: segments) := by
    have hreads : Reads "r" sampleOverwriting
        (sampleOverwriting.map fun entry => (locate "r" entry.1, entry.2)) := by decide +kernel
    exact hreads.exists_read
  have hdistinct : ∀ first ∈ sampleOverwriting, ∀ second ∈ sampleOverwriting,
      Path.read first.1 = Path.read second.1 → first.1 = second.1 := by decide +kernel
  exact ⟨hread, hdistinct, assemble_entries_ofList hread hdistinct⟩

/-- Two spellings of one place keep two slots, and the value of the later slot stays. -/
example :
    let added := [("/r/a", "1"), ("/r/a[1]", "2"), ("/r/a", "3")]
    let text := Node.valueAt? [.element "a" 1]
    (assemble "r" added).map text = .ok (some "3") ∧
      (assemble "r" (OrderedMap.ofList added : Assignments).entries).map text = .ok (some "2") := by
  decide +kernel

end Document

end GeoMetadata
