import GeoMetadata.Proofs.Text.Pieces
import GeoMetadata.Security.Mapping
import Mathlib.Data.List.Nodup

/-!
# Security mappings and their entries

The pairs of a mapping that is given by entries can be written as entries again: no part is empty
or has an equals sign (`isSpelled_ofList`).  Put into an empty mapping in the order of their codes,
none of these entries evicts another, because no code and no value stands twice.  So the entries of
a mapping give the same pairs, though in another order (`perm_pairs_ofList_toList`), and with them
the same codes of all values (`codeOf?_ofList_toList`).
-/

namespace GeoMetadata.SecurityMapping

/-! ## Entries -/

/-- The text can stand on one side of an entry. -/
def IsSide (text : String) : Prop := text.toList ≠ [] ∧ '=' ∉ text.toList

/-- Both parts of the pair can stand in an entry. -/
def IsSpelled (pair : String × String) : Prop := IsSide pair.1 ∧ IsSide pair.2

theorem toList_entryOf (pair : String × String) :
    (entryOf pair).toList = pair.1.toList ++ '=' :: pair.2.toList := by
  simp [entryOf]

theorem splitAt_eq_pair_iff {entry : String} {pair : String × String} :
    Text.splitAt '=' entry.toList = [pair.1.toList, pair.2.toList] ↔
      entry = entryOf pair ∧ '=' ∉ pair.1.toList ∧ '=' ∉ pair.2.toList := by
  rw [Text.splitAt_eq_pair_iff, ← toList_entryOf, String.toList_inj]

/-- An entry gives a pair exactly if it is the entry of a pair whose parts can stand in one. -/
theorem pairOf?_eq_some_iff {entry : String} {pair : String × String} :
    pairOf? entry = some pair ↔ entry = entryOf pair ∧ IsSpelled pair := by
  have hsplit := @splitAt_eq_pair_iff entry pair
  constructor
  · intro h
    unfold pairOf? at h
    split at h
    · rename_i key value hpieces
      split at h
      · cases h
      · rename_i hsome
        obtain rfl := Option.some.inj h
        obtain ⟨hentry, hkey, hvalue⟩ := hsplit.mp (by simpa using hpieces)
        rw [not_or] at hsome
        exact ⟨hentry, ⟨by simpa using hsome.1, hkey⟩, by simpa using hsome.2, hvalue⟩
    · cases h
  · rintro ⟨hentry, ⟨hkey, hkeyFree⟩, hvalue, hvalueFree⟩
    rw [pairOf?, hsplit.mpr ⟨hentry, hkeyFree, hvalueFree⟩]
    simp [hkey, hvalue]

theorem isSpelled_putEntry {m : SecurityMapping} (entry : String)
    (h : ∀ pair ∈ m.pairs, IsSpelled pair) : ∀ pair ∈ (m.putEntry entry).pairs, IsSpelled pair := by
  unfold putEntry
  split
  · rename_i key value hpair
    rw [pairs_put]
    refine List.forall_mem_append.mpr ⟨fun pair hkept => h pair (List.mem_of_mem_filter hkept), ?_⟩
    rw [List.forall_mem_singleton]
    exact (pairOf?_eq_some_iff.mp hpair).2
  · exact h

theorem isSpelled_foldl_putEntry {m : SecurityMapping} (entries : List String)
    (h : ∀ pair ∈ m.pairs, IsSpelled pair) :
    ∀ pair ∈ (entries.foldl putEntry m).pairs, IsSpelled pair := by
  induction entries generalizing m with
  | nil => exact h
  | cons entry rest ih => exact ih (isSpelled_putEntry entry h)

theorem isSpelled_ofList (entries : List String) :
    ∀ pair ∈ (ofList entries).pairs, IsSpelled pair :=
  isSpelled_foldl_putEntry entries fun _ h => nomatch h

/-! ## Putting the entries of a mapping -/

theorem pairs_put_of_fresh {m : SecurityMapping} {key value : String}
    (hkey : key ∉ m.pairs.map Prod.fst) (hvalue : value ∉ m.pairs.map Prod.snd) :
    (m.put key value).pairs = m.pairs ++ [(key, value)] := by
  have hkept : kept m.pairs key value = m.pairs := by
    refine List.filter_eq_self.mpr fun pair hpair => decide_eq_true ⟨?_, ?_⟩
    · rintro rfl
      exact hkey (List.mem_map_of_mem hpair)
    · rintro rfl
      exact hvalue (List.mem_map_of_mem hpair)
  rw [pairs_put, hkept]

/-- Entries whose pairs share neither codes nor values are all kept. -/
theorem pairs_foldl_putEntry {m : SecurityMapping} {pairs : List (String × String)}
    (hspelled : ∀ pair ∈ pairs, IsSpelled pair)
    (hkeys : ((m.pairs ++ pairs).map Prod.fst).Nodup)
    (hvalues : ((m.pairs ++ pairs).map Prod.snd).Nodup) :
    ((pairs.map entryOf).foldl putEntry m).pairs = m.pairs ++ pairs := by
  induction pairs generalizing m with
  | nil => rw [List.append_nil]; rfl
  | cons pair rest ih =>
      obtain ⟨hpair, hrest⟩ := List.forall_mem_cons.mp hspelled
      have hfresh {f : String × String → String}
          (hnodup : ((m.pairs ++ pair :: rest).map f).Nodup) : f pair ∉ m.pairs.map f := by
        rw [List.map_append, List.nodup_append] at hnodup
        exact fun hmem => hnodup.2.2 _ hmem _ (List.mem_map_of_mem List.mem_cons_self) rfl
      have hput : (m.putEntry (entryOf pair)).pairs = m.pairs ++ [pair] := by
        rw [putEntry, pairOf?_eq_some_iff.mpr ⟨rfl, hpair⟩]
        exact pairs_put_of_fresh (hfresh hkeys) (hfresh hvalues)
      have hmove : m.pairs ++ pair :: rest = (m.putEntry (entryOf pair)).pairs ++ rest := by
        rw [hput, List.append_assoc, List.singleton_append]
      rw [hmove] at hkeys hvalues ⊢
      exact ih hrest hkeys hvalues

/-- The pairs in the order of their codes. -/
def listed (m : SecurityMapping) : List (String × String) := m.pairs.mergeSort fun p q => p.1 ≤ q.1

theorem perm_listed (m : SecurityMapping) : m.listed.Perm m.pairs := List.mergeSort_perm _ _

/-- The entries of a mapping give its pairs again, in the order of the entries. -/
theorem pairs_ofList_toList {m : SecurityMapping} (h : ∀ pair ∈ m.pairs, IsSpelled pair) :
    (ofList m.toList).pairs = m.listed :=
  pairs_foldl_putEntry (m := empty) (fun pair hpair => h pair (m.perm_listed.mem_iff.mp hpair))
    ((m.perm_listed.map Prod.fst).nodup_iff.mpr m.keys_nodup)
    ((m.perm_listed.map Prod.snd).nodup_iff.mpr m.values_nodup)

theorem perm_pairs_ofList_toList {m : SecurityMapping}
    (h : ∀ pair ∈ m.pairs, IsSpelled pair) : (ofList m.toList).pairs.Perm m.pairs := by
  rw [pairs_ofList_toList h]
  exact m.perm_listed

/-! ## Codes -/

theorem codeOf?_ofList_toList {m : SecurityMapping} (h : ∀ pair ∈ m.pairs, IsSpelled pair)
    (value : String) : (ofList m.toList).codeOf? value = m.codeOf? value := by
  refine Option.ext fun code => ?_
  rw [codeOf?_eq_some_iff, codeOf?_eq_some_iff, (perm_pairs_ofList_toList h).mem_iff]

end GeoMetadata.SecurityMapping
