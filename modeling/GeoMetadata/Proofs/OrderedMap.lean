import GeoMetadata.OrderedMap
import Mathlib.Data.List.Induction

/-!
# Maps after a list of insertions

When entries are inserted one after the other, a key gets its slot from the first entry that has it
(`keys_insertMany`) and its value from the last (`get?_insertMany`).  Keys that none of the entries
has keep their values, and keys that are pairwise different get the values next to them
(`get?_insertMany_of_not_mem`, `get?_insertMany_of_mem`).
-/

namespace GeoMetadata

/-! ## Lists without repetitions -/

section EraseDups

variable {α β : Type}

theorem filterMap_concat (f : α → Option β) (as : List α) (b : α) :
    (as ++ [b]).filterMap f = as.filterMap f ++ (f b).toList := by
  rw [List.filterMap_append]
  cases h : f b <;> simp [h]

variable [BEq α] [LawfulBEq α]

theorem eraseDups_concat (as : List α) (b : α) :
    (as ++ [b]).eraseDups = if b ∈ as then as.eraseDups else as.eraseDups ++ [b] := by
  rw [List.eraseDups_append]
  by_cases hmem : b ∈ as <;> simp [List.removeAll, List.eraseDups_cons, hmem]

theorem nodup_eraseDups (as : List α) : as.eraseDups.Nodup := by
  induction as using List.reverseRecOn with
  | nil => simp
  | append_singleton as b ih =>
      rw [eraseDups_concat]
      split
      · exact ih
      · rename_i hfresh
        rw [List.nodup_append]
        refine ⟨ih, by simp, fun a ha c hc => ?_⟩
        rintro rfl
        rw [List.mem_singleton] at hc
        exact hfresh (hc ▸ List.mem_eraseDups.mp ha)

theorem eraseDups_sublist (as : List α) : as.eraseDups.Sublist as := by
  induction as using List.reverseRecOn with
  | nil => simp
  | append_singleton as b ih =>
      rw [eraseDups_concat]
      split
      · exact ih.trans (List.sublist_append_left _ _)
      · exact ih.append_right _

theorem eraseDups_eq_self {as : List α} (h : as.Nodup) : as.eraseDups = as := by
  induction as using List.reverseRecOn with
  | nil => rfl
  | append_singleton as b ih =>
      obtain ⟨has, -, hfresh⟩ := List.nodup_append.mp h
      have hb : b ∉ as := fun hmem => hfresh b hmem b List.mem_cons_self rfl
      rw [eraseDups_concat, if_neg hb, ih has]

end EraseDups

/-! ## Insertions -/

namespace OrderedMap

variable {κ ν : Type} [DecidableEq κ]

/-- The value of the last entry with a key. -/
def lastInserted? (key : κ) (entries : List (κ × ν)) : Option ν :=
  (entries.filterMap fun entry => if entry.1 = key then some entry.2 else none).getLast?

theorem lastInserted?_concat (key : κ) (entries : List (κ × ν)) (last : κ × ν) :
    lastInserted? key (entries ++ [last]) =
      if last.1 = key then some last.2 else lastInserted? key entries := by
  rw [lastInserted?, filterMap_concat]
  by_cases hkey : last.1 = key <;> simp [hkey, lastInserted?]

theorem lastInserted?_eq_none {key : κ} {entries : List (κ × ν)}
    (h : key ∉ entries.map Prod.fst) : lastInserted? key entries = none := by
  rw [lastInserted?, List.getLast?_eq_none_iff, List.filterMap_eq_nil_iff]
  intro entry hentry
  have hkey : entry.1 ≠ key := by
    rintro rfl
    exact h (List.mem_map_of_mem hentry)
  exact if_neg hkey

theorem insertMany_concat (m : OrderedMap κ ν) (entries : List (κ × ν)) (last : κ × ν) :
    m.insertMany (entries ++ [last]) = (m.insertMany entries).insert last.1 last.2 := by
  rw [insertMany_append]
  rfl

/-- The keys stand in the order of their first insertion. -/
theorem keys_insertMany (m : OrderedMap κ ν) (entries : List (κ × ν)) :
    (m.insertMany entries).keys = (m.keys ++ entries.map Prod.fst).eraseDups := by
  induction entries using List.reverseRecOn with
  | nil =>
      have hnodup : m.keys.Nodup := m.nodup
      rw [List.map_nil, List.append_nil, eraseDups_eq_self hnodup, insertMany_nil]
  | append_singleton entries last ih =>
      rw [insertMany_concat, keys_insert, ih, List.map_append, List.map_singleton,
        ← List.append_assoc, eraseDups_concat]
      simp only [List.mem_eraseDups]

/-- A key has the value that is inserted last. -/
theorem get?_insertMany (m : OrderedMap κ ν) (entries : List (κ × ν)) (key : κ) :
    (m.insertMany entries).get? key = (lastInserted? key entries).or (m.get? key) := by
  induction entries using List.reverseRecOn with
  | nil => rfl
  | append_singleton entries last ih =>
      rw [insertMany_concat, get?_insert, ih, lastInserted?_concat]
      by_cases hkey : last.1 = key <;> simp [hkey]

theorem get?_insertMany_of_not_mem {entries : List (κ × ν)} {key : κ}
    (h : key ∉ entries.map Prod.fst) (m : OrderedMap κ ν) :
    (m.insertMany entries).get? key = m.get? key := by
  rw [get?_insertMany, lastInserted?_eq_none h, Option.none_or]

theorem get?_insertMany_of_mem {entries : List (κ × ν)} {key : κ} {value : ν}
    (hnodup : (entries.map Prod.fst).Nodup) (hmem : (key, value) ∈ entries) (m : OrderedMap κ ν) :
    (m.insertMany entries).get? key = some value := by
  induction entries generalizing m with
  | nil => simp at hmem
  | cons entry rest ih =>
      obtain ⟨hfresh, hrest⟩ := List.nodup_cons.mp hnodup
      rw [insertMany_cons]
      rcases List.mem_cons.mp hmem with rfl | hmem
      · rw [get?_insertMany_of_not_mem hfresh, get?_insert, if_pos rfl]
      · exact ih hrest hmem _

theorem ofList_concat (entries : List (κ × ν)) (last : κ × ν) :
    ofList (entries ++ [last]) = (ofList entries).insert last.1 last.2 :=
  insertMany_concat empty entries last

theorem keys_ofList (entries : List (κ × ν)) :
    (ofList entries).keys = (entries.map Prod.fst).eraseDups :=
  keys_insertMany empty entries

theorem get?_ofList (entries : List (κ × ν)) (key : κ) :
    (ofList entries).get? key = lastInserted? key entries := by
  rw [ofList, get?_insertMany, get?_empty, Option.or_none]

end OrderedMap

end GeoMetadata
