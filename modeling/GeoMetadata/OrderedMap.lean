/-!
# Maps that remember the order of their keys

An `OrderedMap` is a list of entries whose keys are pairwise different.  `insert` replaces
the value of a key that is present and leaves it in its slot; a new key comes last.  So the
keys stand in the order of their first insertion, and `get?_insert` and `keys_insert` say all
that can be observed.
-/

namespace GeoMetadata

universe u v

variable {κ : Type u} {ν : Type v} [DecidableEq κ]

/-! ## Entries -/

/-- The entries with `value` under `key`: in its slot if the key is present, else at the end. -/
def insertEntry (key : κ) (value : ν) : List (κ × ν) → List (κ × ν)
  | [] => [(key, value)]
  | entry :: rest =>
    if entry.1 = key then (key, value) :: rest else entry :: insertEntry key value rest

/-- The value of the first entry with a key. -/
def entryValue? (key : κ) : List (κ × ν) → Option ν
  | [] => none
  | entry :: rest => if entry.1 = key then some entry.2 else entryValue? key rest

theorem map_fst_insertEntry (key : κ) (value : ν) (entries : List (κ × ν)) :
    (insertEntry key value entries).map Prod.fst =
      if key ∈ entries.map Prod.fst then entries.map Prod.fst
      else entries.map Prod.fst ++ [key] := by
  induction entries with
  | nil => simp [insertEntry]
  | cons entry rest ih =>
    by_cases h : entry.1 = key
    · simp [insertEntry, h]
    · have h' : key ≠ entry.1 := fun e => h e.symm
      simp only [insertEntry, if_neg h, List.map_cons, ih, List.mem_cons, h', false_or]
      split <;> simp

theorem nodup_insertEntry {key : κ} {value : ν} {entries : List (κ × ν)}
    (h : (entries.map Prod.fst).Nodup) : ((insertEntry key value entries).map Prod.fst).Nodup := by
  rw [map_fst_insertEntry]
  split
  · exact h
  · rename_i hfresh
    rw [List.nodup_append]
    refine ⟨h, by simp, ?_⟩
    intro x hx y hy
    rw [List.mem_singleton] at hy
    subst hy
    exact fun e => hfresh (e ▸ hx)

theorem insertEntry_of_not_mem {key : κ} {value : ν} {entries : List (κ × ν)}
    (hfresh : key ∉ entries.map Prod.fst) :
    insertEntry key value entries = entries ++ [(key, value)] := by
  induction entries with
  | nil => rfl
  | cons entry rest ih =>
    rw [List.map_cons, List.mem_cons, not_or] at hfresh
    rw [insertEntry, if_neg (Ne.symm hfresh.1), ih hfresh.2, List.cons_append]

theorem entryValue?_insertEntry (key other : κ) (value : ν) (entries : List (κ × ν)) :
    entryValue? other (insertEntry key value entries) =
      if key = other then some value else entryValue? other entries := by
  induction entries with
  | nil => simp [insertEntry, entryValue?]
  | cons entry rest ih =>
    by_cases h : entry.1 = key
    · by_cases h' : key = other <;> simp [insertEntry, entryValue?, h, h']
    · by_cases h' : entry.1 = other
      · subst h'
        simp [insertEntry, entryValue?, h, Ne.symm h]
      · simp [insertEntry, entryValue?, h, h', ih]

theorem mem_of_entryValue?_eq_some {key : κ} {value : ν} {entries : List (κ × ν)}
    (h : entryValue? key entries = some value) : (key, value) ∈ entries := by
  induction entries with
  | nil => simp [entryValue?] at h
  | cons entry rest ih =>
    rw [entryValue?] at h
    split at h
    · rename_i hkey
      subst hkey
      obtain rfl := Option.some.inj h
      exact List.mem_cons_self
    · exact List.mem_cons_of_mem _ (ih h)

theorem entryValue?_eq_some_iff {key : κ} {value : ν} {entries : List (κ × ν)}
    (hnodup : (entries.map Prod.fst).Nodup) :
    entryValue? key entries = some value ↔ (key, value) ∈ entries := by
  refine ⟨mem_of_entryValue?_eq_some, fun hmem => ?_⟩
  induction entries with
  | nil => simp at hmem
  | cons entry rest ih =>
    rw [List.map_cons, List.nodup_cons] at hnodup
    rcases List.mem_cons.mp hmem with rfl | hmem
    · simp [entryValue?]
    · have hne : entry.1 ≠ key := fun h => hnodup.1 (h ▸ List.mem_map_of_mem hmem)
      rw [entryValue?, if_neg hne]
      exact ih hnodup.2 hmem

theorem entryValue?_append (key : κ) (first second : List (κ × ν)) :
    entryValue? key (first ++ second) =
      (entryValue? key first).or (entryValue? key second) := by
  induction first with
  | nil => rfl
  | cons entry rest ih =>
    rw [List.cons_append, entryValue?, entryValue?, ih]
    split <;> rfl

theorem exists_entryValue?_of_mem {key : κ} {entries : List (κ × ν)}
    (h : key ∈ entries.map Prod.fst) : ∃ value, entryValue? key entries = some value := by
  induction entries with
  | nil => simp at h
  | cons entry rest ih =>
    rw [entryValue?]
    split
    · exact ⟨entry.2, rfl⟩
    · rename_i hkey
      rw [List.map_cons, List.mem_cons] at h
      exact ih (h.resolve_left (Ne.symm hkey))

theorem mem_of_mem_insertEntry {key : κ} {value : ν} {entries : List (κ × ν)} {entry : κ × ν}
    (h : entry ∈ insertEntry key value entries) : entry = (key, value) ∨ entry ∈ entries := by
  induction entries with
  | nil => exact .inl (List.mem_singleton.mp h)
  | cons first rest ih =>
    rw [insertEntry] at h
    split at h
    · exact (List.mem_cons.mp h).imp id (List.mem_cons_of_mem first)
    · rcases List.mem_cons.mp h with rfl | h
      · exact .inr List.mem_cons_self
      · exact (ih h).imp id (List.mem_cons_of_mem first)

theorem entryValue?_eq_none_iff {key : κ} {entries : List (κ × ν)} :
    entryValue? key entries = none ↔ key ∉ entries.map Prod.fst := by
  induction entries with
  | nil => simp [entryValue?]
  | cons entry rest ih =>
    rw [entryValue?, List.map_cons, List.mem_cons, not_or]
    split
    · rename_i hkey
      simp [hkey]
    · rename_i hkey
      rw [ih]
      exact ⟨fun hrest => ⟨Ne.symm hkey, hrest⟩, And.right⟩

/-- The entries of the keys other than one. -/
def eraseEntry (key : κ) (entries : List (κ × ν)) : List (κ × ν) :=
  entries.filter fun entry => entry.1 ≠ key

theorem nodup_eraseEntry {key : κ} {entries : List (κ × ν)}
    (h : (entries.map Prod.fst).Nodup) : ((eraseEntry key entries).map Prod.fst).Nodup :=
  (List.filter_sublist.map Prod.fst).nodup h

/-! ## Maps -/

/-- A map whose keys keep the order in which they were first inserted. -/
structure OrderedMap (κ : Type u) (ν : Type v) where
  /-- The entries in order. -/
  entries : List (κ × ν)
  /-- No key stands twice. -/
  nodup : (entries.map Prod.fst).Nodup

namespace OrderedMap

/-- The map without entries. -/
def empty : OrderedMap κ ν := ⟨[], List.nodup_nil⟩

instance : Inhabited (OrderedMap κ ν) := ⟨empty⟩

/-- The map with `value` under `key`. -/
def insert (m : OrderedMap κ ν) (key : κ) (value : ν) : OrderedMap κ ν :=
  ⟨insertEntry key value m.entries, nodup_insertEntry m.nodup⟩

/-- The value of a key. -/
def get? (m : OrderedMap κ ν) (key : κ) : Option ν := entryValue? key m.entries

/-- The map without a key. -/
def erase (m : OrderedMap κ ν) (key : κ) : OrderedMap κ ν :=
  ⟨eraseEntry key m.entries, nodup_eraseEntry m.nodup⟩

/-- The keys in order. -/
def keys (m : OrderedMap κ ν) : List κ := m.entries.map Prod.fst

/-- The key has a value. -/
def contains (m : OrderedMap κ ν) (key : κ) : Bool := (m.get? key).isSome

/-- The number of keys. -/
def size (m : OrderedMap κ ν) : Nat := m.entries.length

/-- A key that has to be in a map and is not. -/
structure MissingKey (κ : Type u) where
  key : κ
  deriving DecidableEq, Repr

/-- The map without a key that has to be there. -/
def remove (m : OrderedMap κ ν) (key : κ) : Except (MissingKey κ) (OrderedMap κ ν) :=
  if m.contains key then .ok (m.erase key) else .error ⟨key⟩

/-- The map with some entries inserted in order. -/
def insertMany (m : OrderedMap κ ν) (entries : List (κ × ν)) : OrderedMap κ ν :=
  entries.foldl (fun m entry => m.insert entry.1 entry.2) m

/-- The map of some entries, inserted in order. -/
def ofList (entries : List (κ × ν)) : OrderedMap κ ν := empty.insertMany entries

@[simp] theorem get?_empty (key : κ) : (empty : OrderedMap κ ν).get? key = none := rfl

theorem get?_insert (m : OrderedMap κ ν) (key other : κ) (value : ν) :
    (m.insert key value).get? other = if key = other then some value else m.get? other :=
  entryValue?_insertEntry key other value m.entries

theorem get?_eq_some_iff {m : OrderedMap κ ν} {key : κ} {value : ν} :
    m.get? key = some value ↔ (key, value) ∈ m.entries := entryValue?_eq_some_iff m.nodup

theorem get?_eq_none_iff {m : OrderedMap κ ν} {key : κ} : m.get? key = none ↔ key ∉ m.keys :=
  entryValue?_eq_none_iff

/-- A key that has a value can be removed. -/
theorem remove_of_get?_eq_some {m : OrderedMap κ ν} {key : κ} {value : ν}
    (h : m.get? key = some value) : m.remove key = .ok (m.erase key) := by
  rw [remove, contains, h]
  rfl

theorem keys_insert (m : OrderedMap κ ν) (key : κ) (value : ν) :
    (m.insert key value).keys = if key ∈ m.keys then m.keys else m.keys ++ [key] :=
  map_fst_insertEntry key value m.entries

theorem entries_insert_of_not_mem {m : OrderedMap κ ν} {key : κ} {value : ν}
    (hfresh : key ∉ m.keys) : (m.insert key value).entries = m.entries ++ [(key, value)] :=
  insertEntry_of_not_mem hfresh

@[simp] theorem insertMany_nil (m : OrderedMap κ ν) : m.insertMany [] = m := rfl

@[simp] theorem insertMany_cons (m : OrderedMap κ ν) (entry : κ × ν) (rest : List (κ × ν)) :
    m.insertMany (entry :: rest) = (m.insert entry.1 entry.2).insertMany rest := rfl

theorem insertMany_append (m : OrderedMap κ ν) (first second : List (κ × ν)) :
    m.insertMany (first ++ second) = (m.insertMany first).insertMany second := by
  simp [insertMany]

/-- Entries with new keys that differ are put at the end. -/
theorem entries_insertMany_of_nodup {m : OrderedMap κ ν} {entries : List (κ × ν)}
    (hnodup : (m.keys ++ entries.map Prod.fst).Nodup) :
    (m.insertMany entries).entries = m.entries ++ entries := by
  induction entries generalizing m with
  | nil => simp
  | cons entry rest ih =>
    have hfresh : entry.1 ∉ m.keys := fun hmem => by
      rw [List.nodup_append] at hnodup
      exact hnodup.2.2 _ hmem _ (by simp) rfl
    have hentries : (m.insert entry.1 entry.2).entries = m.entries ++ [entry] :=
      entries_insert_of_not_mem hfresh
    have hkeys : (m.insert entry.1 entry.2).keys = m.keys ++ [entry.1] := by
      rw [keys, hentries, List.map_append, keys, List.map_singleton]
    rw [insertMany_cons, ih (by simpa [hkeys] using hnodup), hentries, List.append_assoc,
      List.singleton_append]

/-- A list of entries with different keys is the map of these entries. -/
theorem entries_ofList_of_nodup {entries : List (κ × ν)} (hnodup : (entries.map Prod.fst).Nodup) :
    (ofList entries).entries = entries := entries_insertMany_of_nodup (m := empty) hnodup

theorem mem_of_mem_entries_insertMany {m : OrderedMap κ ν} {entries : List (κ × ν)}
    {entry : κ × ν} (h : entry ∈ (m.insertMany entries).entries) :
    entry ∈ m.entries ∨ entry ∈ entries := by
  induction entries generalizing m with
  | nil => exact .inl h
  | cons first rest ih =>
    rcases ih h with h | h
    · rcases mem_of_mem_insertEntry h with rfl | h
      · exact .inr List.mem_cons_self
      · exact .inl h
    · exact .inr (List.mem_cons_of_mem _ h)

theorem mem_of_mem_entries_ofList {entries : List (κ × ν)} {entry : κ × ν}
    (h : entry ∈ (ofList entries).entries) : entry ∈ entries :=
  (mem_of_mem_entries_insertMany h).resolve_left List.not_mem_nil

end OrderedMap

end GeoMetadata
