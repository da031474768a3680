import GeoMetadata.Security.Tables
import GeoMetadata.Text.Search
import GeoMetadata.Value

/-!
# Security mappings

A security mapping pairs classification codes with the values that records have for them.
No code and no value stands in two pairs: putting a pair evicts the earlier pairs that share
its code or its value.  A mapping is given by entries of the form `code=value`.
-/

namespace GeoMetadata

/-- A one-to-one pairing of codes and values. -/
structure SecurityMapping where
  /-- The pairs by their codes and by their values. -/
  tables : SecurityTables
  /-- The two tables hold the same pairs. -/
  mirrored : tables.IsMirrored

namespace SecurityMapping

/-- The mapping without pairs. -/
def empty : SecurityMapping := ⟨.empty, SecurityTables.isMirrored_empty⟩

instance : Inhabited SecurityMapping := ⟨empty⟩

/-- The mapping with a pair put, which the tables of a mapping never refuse. -/
def put (m : SecurityMapping) (key value : String) : SecurityMapping :=
  match h : m.tables.put key value with
  | .ok tables => ⟨tables, SecurityTables.isMirrored_put m.mirrored h⟩
  | .error _ => nomatch (SecurityTables.put_eq_ok m.mirrored key value).symm.trans h

/-- The value of a code. -/
def get? (m : SecurityMapping) (key : String) : Option String := m.tables.forward.get? key

/-- The code of a value. -/
def codeOf? (m : SecurityMapping) (value : String) : Option String := m.tables.inverse.get? value

/-- The code is in a pair. -/
def contains (m : SecurityMapping) (key : String) : Bool := m.tables.forward.contains key

/-- The number of pairs. -/
def size (m : SecurityMapping) : Nat := m.tables.forward.size

/-! ## Pairs -/

/-- The pairs, in the order in which they were put. -/
def pairs (m : SecurityMapping) : List (String × String) := m.tables.forward.entries

theorem get?_eq_some_iff {m : SecurityMapping} {code value : String} :
    m.get? code = some value ↔ (code, value) ∈ m.pairs := OrderedMap.get?_eq_some_iff

theorem codeOf?_eq_some_iff {m : SecurityMapping} {code value : String} :
    m.codeOf? value = some code ↔ (code, value) ∈ m.pairs :=
  (m.mirrored code value).symm.trans get?_eq_some_iff

/-- No code stands twice. -/
theorem keys_nodup (m : SecurityMapping) : (m.pairs.map Prod.fst).Nodup := m.tables.forward.nodup

/-- No value stands twice. -/
theorem values_nodup (m : SecurityMapping) : (m.pairs.map Prod.snd).Nodup := by
  have hkeys : m.pairs.Pairwise fun p q => p.1 ≠ q.1 := List.pairwise_map.mp m.keys_nodup
  refine List.pairwise_map.mpr (hkeys.imp_of_mem fun {p q} hp hq hne heq => hne ?_)
  have hcode : m.codeOf? q.2 = some p.1 := heq ▸ codeOf?_eq_some_iff.mpr hp
  exact Option.some.inj (hcode.symm.trans (codeOf?_eq_some_iff.mpr hq))

/-- The pairs that share neither code nor value with a new one. -/
def kept (pairs : List (String × String)) (key value : String) : List (String × String) :=
  pairs.filter fun pair => pair.1 ≠ key ∧ pair.2 ≠ value

theorem tables_put (m : SecurityMapping) (key value : String) :
    m.tables.put key value = .ok (m.put key value).tables := by
  unfold put
  split
  · assumption
  · rename_i h
    cases (SecurityTables.put_eq_ok m.mirrored key value).symm.trans h

/-- A pair is put behind the pairs that it does not evict. -/
theorem pairs_put (m : SecurityMapping) (key value : String) :
    (m.put key value).pairs = kept m.pairs key value ++ [(key, value)] := by
  have hput := (tables_put m key value).symm.trans (SecurityTables.put_eq_ok m.mirrored key value)
  have hkept : (m.tables.without key value).forward.entries = kept m.pairs key value := by
    simp [SecurityTables.without, OrderedMap.eraseValue, OrderedMap.erase, eraseEntry, kept, pairs,
      Bool.and_comm]
  have hfresh : key ∉ (m.tables.without key value).forward.keys := by
    rw [OrderedMap.keys, hkept]
    simp [kept]
  rw [pairs, Except.ok.inj hput, OrderedMap.entries_insert_of_not_mem hfresh, hkept]

/-! ## Entries -/

/-- The pair that an entry gives: two parts around one equals sign, neither of them empty. -/
def pairOf? (entry : String) : Option (String × String) :=
  match Text.splitAt '=' entry.toList with
  | [key, value] =>
    if key = [] ∨ value = [] then none else some (String.ofList key, String.ofList value)
  | _ => none

/-- The entry of a pair. -/
def entryOf (pair : String × String) : String := pair.1 ++ "=" ++ pair.2

/-- The mapping with the pair of an entry put, if the entry gives one. -/
def putEntry (m : SecurityMapping) (entry : String) : SecurityMapping :=
  match pairOf? entry with
  | some (key, value) => m.put key value
  | none => m

/-- The mapping of some entries, put in order. -/
def ofList (entries : List String) : SecurityMapping := entries.foldl putEntry empty

/-- The entries of the pairs, in the order of their codes. -/
def toList (m : SecurityMapping) : List String :=
  (m.pairs.mergeSort fun p q => p.1 ≤ q.1).map entryOf

/-- An entry list that holds something else than texts. -/
structure EntryFault where
  value : Value

/-- The entries that a list of values gives. Values that count as nothing are passed over. -/
def entriesOf (values : List Value) : Except EntryFault (List String) :=
  (values.filterMapM fun value => match value with
    | .text s => .ok (some s)
    | value => if value.isEmpty then .ok none else .error ⟨value⟩)

end SecurityMapping

end GeoMetadata
