import GeoMetadata.Proofs.Profile.Document
import Mathlib.Data.List.Nodup

/-!
# The order of a record's document

The children of every element stand in the order of its contract.  The assignments precede each
other, so the names of the children never go back in rank (`Node.InOrder`).  A list of names that
never goes back is made up of runs, one for each slot (`eq_flatMap_replicate_count`), and the run of
a slot that is not repeatable has at most one name, because children differ and all of that name
would have the index 1 (`count_childKeys_le_one`).
-/

namespace GeoMetadata.Profile

open Document (Placement Precedes place childKeys below mem_childKeys mem_below)

/-! ## Names that do not go back -/

/-- If nothing but `key` comes before a `key`, all of them come first. -/
theorem eq_replicate_append_filter {key : String} {names : List String}
    (hfirst : names.Pairwise fun name other => other = key → name = key) :
    names = List.replicate (names.count key) key ++ names.filter (· ≠ key) := by
  induction names with
  | nil => rfl
  | cons name rest ih =>
      obtain ⟨hname, hrest⟩ := List.pairwise_cons.mp hfirst
      by_cases hkey : name = key
      · subst hkey
        simpa [List.replicate_succ] using ih hrest
      · have hnone : key ∉ rest := fun hmem => hkey (hname key hmem rfl)
        have hfilter : rest.filter (· ≠ key) = rest :=
          List.filter_eq_self.mpr fun other hother => decide_eq_true fun (h : other = key) =>
            hnone (h ▸ hother)
        rw [List.count_cons_of_ne hkey, List.count_eq_zero.mpr hnone,
          List.filter_cons_of_pos (by simpa using hkey), hfilter]
        rfl

/-- Names whose positions among some keys do not go back are the keys in order, each as often as it
occurs. -/
theorem eq_flatMap_replicate_count {keys names : List String} (hnodup : keys.Nodup)
    (hmem : ∀ name ∈ names, name ∈ keys)
    (horder : names.Pairwise fun name other =>
      name = other ∨ keys.idxOf name < keys.idxOf other) :
    names = keys.flatMap fun key => List.replicate (names.count key) key := by
  induction keys generalizing names with
  | nil => exact List.eq_nil_iff_forall_not_mem.mpr fun name hname => nomatch hmem name hname
  | cons key rest ih =>
      obtain ⟨hfresh, hrest⟩ := List.nodup_cons.mp hnodup
      -- Nothing has a position before the first key's, so that its names come first.
      have hsplit : names = List.replicate (names.count key) key ++ names.filter (· ≠ key) := by
        refine eq_replicate_append_filter (horder.imp fun {name other} h hother => ?_)
        rcases h with h | h
        · rw [h, hother]
        · rw [hother, List.idxOf_cons_self] at h
          exact absurd h (Nat.not_lt_zero _)
      -- The positions of the other names go down by one without the first key.
      have hothers : names.filter (· ≠ key) =
          rest.flatMap fun other => List.replicate ((names.filter (· ≠ key)).count other) other := by
        refine ih hrest (fun name hname => ?_) ?_
        · obtain ⟨hname, hne⟩ := List.mem_filter.mp hname
          exact (List.mem_cons.mp (hmem name hname)).resolve_left (of_decide_eq_true hne)
        · refine (horder.sublist List.filter_sublist).imp_of_mem fun {name other} hname hother h => ?_
          have hname := of_decide_eq_true (List.mem_filter.mp hname).2
          have hother := of_decide_eq_true (List.mem_filter.mp hother).2
          rw [List.idxOf_cons_ne _ (Ne.symm hname), List.idxOf_cons_ne _ (Ne.symm hother)] at h
          exact h.imp_right Nat.lt_of_succ_lt_succ
      have hcount : ∀ other ∈ rest, List.replicate ((names.filter (· ≠ key)).count other) other =
          List.replicate (names.count other) other := by
        intro other hother
        have hne : other ≠ key := fun h => hfresh (h ▸ hother)
        rw [List.count_filter (by simpa using hne)]
      rw [List.flatMap_cons, ← List.flatMap_congr hcount, ← hothers]
      exact hsplit

/-! ## Children and their contracts -/

theorem nodup_map_name {parent : String} {slots : List Slot}
    (hslots : entryValue? parent contract = some slots) : (slots.map Slot.name).Nodup := by
  have hall : ∀ entry ∈ contract, (entry.2.map Slot.name).Nodup := by decide +kernel
  exact hall _ (mem_of_entryValue?_eq_some hslots)

/-- The places lead from an element in order and within its contract. -/
structure Contracted (name : String) (placements : List Placement) : Prop where
  precedes : placements.Pairwise fun p q => Document.Precedes rank name p.1 q.1
  fits : ∀ p ∈ placements, Fits name p.1

theorem Contracted.below {name : String} {placements : List Placement} (key : String × Nat)
    (h : Contracted name placements) : Contracted key.1 (below key placements) where
  precedes := Document.pairwise_below key h.precedes
  fits := by
    rintro ⟨rest, value⟩ hmem
    exact (h.fits _ (mem_below.mp hmem)).2

/-- A child is in the contract of its parent. -/
theorem Contracted.exists_slot {name : String} {placements : List Placement} {slots : List Slot}
    (h : Contracted name placements) (hslots : entryValue? name contract = some slots)
    {key : String × Nat} (hkey : key ∈ childKeys placements) :
    ∃ slot ∈ slots, slot.name = key.1 ∧ (slot.repeatable = false → key.2 = 1) := by
  obtain ⟨⟨segments, value⟩, hmem, hhead⟩ := mem_childKeys.mp hkey
  rcases segments with _ | ⟨⟨childName, childIndex⟩ | attrName, rest⟩
  · nomatch hhead
  · obtain rfl := Option.some.inj hhead
    exact (h.fits _ hmem).1 slots hslots
  · nomatch hhead

/-- Children differ, so that there is one of a name at most if all of that name have one index. -/
theorem count_childKeys_le_one {placements : List Placement} {name : String}
    (hindex : ∀ key ∈ childKeys placements, key.1 = name → key.2 = 1) :
    ((childKeys placements).map Prod.fst).count name ≤ 1 := by
  have hnodup := List.nodup_iff_count_le_one.mp (Document.nodup_childKeys placements) (name, 1)
  refine Nat.le_trans (Nat.le_of_eq ?_) hnodup
  rw [List.count_eq_countP, List.countP_map, List.count_eq_countP]
  refine List.countP_congr fun key hkey => ?_
  simp only [Function.comp_apply, beq_iff_eq]
  constructor
  · intro hname
    exact Prod.ext hname (hindex key hkey hname)
  · rintro rfl
    rfl

theorem Contracted.follows {name : String} {index : Int} {placements : List Placement}
    {slots : List Slot} (h : Contracted name placements)
    (hslots : entryValue? name contract = some slots) :
    Follows slots ((place placements (.leaf name index)).children.map Node.name) := by
  have hnodup := nodup_map_name hslots
  have hchildNames : childNames name = slots.map Slot.name := by
    rw [childNames, hslots, Option.getD_some]
  have horder : (place placements (.leaf name index)).InOrder rank :=
    Document.inOrder_of_pairwise h.precedes
  rw [Node.InOrder, Document.name_place] at horder
  rw [Document.map_name_children_place] at horder ⊢
  have hmem : ∀ child ∈ (childKeys placements).map Prod.fst, child ∈ slots.map Slot.name := by
    rw [List.forall_mem_map]
    intro key hkey
    obtain ⟨slot, hslot, hname, -⟩ := h.exists_slot hslots hkey
    exact hname ▸ List.mem_map_of_mem hslot
  constructor
  · have hruns := eq_flatMap_replicate_count hnodup hmem (hchildNames ▸ horder)
    rwa [List.flatMap_map] at hruns
  · intro slot hslot hsingle
    refine count_childKeys_le_one fun key hkey hname => ?_
    obtain ⟨other, hother, hotherName, hindex⟩ := h.exists_slot hslots hkey
    have hsame : other = slot :=
      List.inj_on_of_nodup_map hnodup hother hslot (hotherName.trans hname)
    exact hindex (hsame ▸ hsingle)

/-! ## Documents -/

/-- In the document of a record, the children of every element follow the contract of the element,
and children of one name stand together. -/
theorem document_follows_contract {source : Source} {tracker : Assignments}
    (hok : assignments source = .ok tracker) :
    ∃ document, Converter.assemble tracker = .ok document ∧ document.name = Layout.rootName ∧
      ∀ node ∈ document.nodes,
        (∀ slots, entryValue? node.name contract = some slots →
          Follows slots (node.children.map Node.name)) ∧ node.Grouped := by
  obtain ⟨placements, h⟩ := exists_placed hok
  refine ⟨_, h.assembled, Document.name_place _ _, ?_⟩
  refine Document.forall_mem_nodes_place Contracted (fun h _ => h.below _)
    (fun {name index placements} h => ?_) ⟨h.precedes, h.fits⟩
  refine ⟨fun slots hslots => ?_, (Document.inOrder_of_pairwise h.precedes).grouped⟩
  rw [Document.name_place] at hslots
  exact h.follows hslots

theorem sample_document_follows_contract :
    ∃ tracker document, assignments sampleSource = .ok tracker ∧
      Converter.assemble tracker = .ok document ∧ document.name = Layout.rootName ∧
      ∀ node ∈ document.nodes,
        (∀ slots, entryValue? node.name contract = some slots →
          Follows slots (node.children.map Node.name)) ∧ node.Grouped := by
  obtain ⟨tracker, hok⟩ := succeeds_assignments_sampleSource
  obtain ⟨document, hdocument⟩ := document_follows_contract hok
  exact ⟨tracker, document, hok, hdocument⟩

end GeoMetadata.Profile
