import GeoMetadata.OrderedMap

/-!
# The tables of a security mapping

The pairs of a security mapping stand in two tables, once by their codes and once by their values.
Putting a pair evicts the earlier pairs that have its code or its value, each of them from both
tables.  The table that is looked at gives up a key that was found there, but the other is made to
give up its key unseen.  It has that key, because the tables mirror each other
(`OrderedMap.Mirrors`), and they still do when the pair is put (`isMirrored_put`).
-/

namespace GeoMetadata

namespace OrderedMap

variable {near far : OrderedMap String String} {key value : String}

/-- Each of two tables holds the pairs of the other, turned around. -/
def Mirrors (near far : OrderedMap String String) : Prop :=
  ∀ key value, near.get? key = some value ↔ far.get? value = some key

/-- The table without the keys of a value. -/
def eraseValue (table : OrderedMap String String) (value : String) : OrderedMap String String :=
  ⟨table.entries.filter fun entry => entry.2 ≠ value,
    (List.filter_sublist.map Prod.fst).nodup table.nodup⟩

theorem get?_eraseValue_eq_some_iff {table : OrderedMap String String} {key value other : String} :
    (table.eraseValue value).get? key = some other ↔ table.get? key = some other ∧ other ≠ value := by
  simp [get?_eq_some_iff, eraseValue]

theorem get?_erase_eq_some_iff {table : OrderedMap String String} {key value other : String} :
    (table.erase key).get? other = some value ↔ table.get? other = some value ∧ other ≠ key := by
  simp [get?_eq_some_iff, erase, eraseEntry]

theorem get?_insert_eq_some_iff {table : OrderedMap String String}
    (hfresh : table.get? key = none) {other found : String} :
    (table.insert key value).get? other = some found ↔
      other = key ∧ found = value ∨ table.get? other = some found := by
  rw [get?_insert]
  split
  · rename_i h
    subst h
    simp [hfresh, eq_comm]
  · rename_i h
    simp [Ne.symm h]

theorem Mirrors.symm (h : near.Mirrors far) : far.Mirrors near :=
  fun key value => (h value key).symm

theorem Mirrors.erase (h : near.Mirrors far) (key : String) :
    (near.erase key).Mirrors (far.eraseValue key) := by
  intro other value
  rw [get?_erase_eq_some_iff, get?_eraseValue_eq_some_iff, h other value]

theorem Mirrors.insert (h : near.Mirrors far) (hkey : near.get? key = none)
    (hvalue : far.get? value = none) : (near.insert key value).Mirrors (far.insert value key) := by
  intro other found
  rw [get?_insert_eq_some_iff hkey, get?_insert_eq_some_iff hvalue, h other found, and_comm]

/-- What a key that is not there is taken from stays as it is, also on the other side. -/
theorem Mirrors.erase_of_get?_eq_none (h : near.Mirrors far) (hkey : near.get? key = none) :
    near.erase key = near ∧ far.eraseValue key = far := by
  have hnear : near.entries.filter (fun entry => entry.1 ≠ key) = near.entries := by
    refine List.filter_eq_self.mpr fun entry hentry => decide_eq_true ?_
    rintro rfl
    exact get?_eq_none_iff.mp hkey (List.mem_map_of_mem hentry)
  have hfar : far.entries.filter (fun entry => entry.2 ≠ key) = far.entries := by
    refine List.filter_eq_self.mpr fun entry hentry => decide_eq_true ?_
    rintro rfl
    rw [(h entry.2 entry.1).mpr (get?_eq_some_iff.mpr hentry)] at hkey
    cases hkey
  simp only [OrderedMap.erase, eraseEntry, eraseValue, hnear, hfar, and_self]

/-- The key of a pair is taken from the other table as the value that it is there. -/
theorem Mirrors.erase_eq_eraseValue (h : near.Mirrors far) (hkey : near.get? key = some value) :
    far.erase value = far.eraseValue key := by
  have hfar : far.entries.filter (fun entry => entry.1 ≠ value) =
      far.entries.filter fun entry => entry.2 ≠ key := by
    refine List.filter_congr fun entry hentry => decide_eq_decide.mpr (not_congr ?_)
    have hfound : far.get? entry.1 = some entry.2 := get?_eq_some_iff.mpr hentry
    constructor
    · rintro rfl
      exact Option.some.inj (hfound.symm.trans ((h _ _).mp hkey))
    · rintro rfl
      exact Option.some.inj (((h _ _).mpr hfound).symm.trans hkey)
  simp only [OrderedMap.erase, eraseEntry, eraseValue, hfar]

end OrderedMap

/-- The pairs of a security mapping by their codes and by their values. -/
structure SecurityTables where
  /-- The values of the codes. -/
  forward : OrderedMap String String
  /-- The codes of the values. -/
  inverse : OrderedMap String String

namespace SecurityTables

open OrderedMap (MissingKey)

/-- The tables without pairs. -/
def empty : SecurityTables := ⟨.empty, .empty⟩

/-- Two tables without the pair of a key of the first, if it has one. -/
def evict (key : String) (near far : OrderedMap String String) :
    Except (MissingKey String) (OrderedMap String String × OrderedMap String String) :=
  match near.get? key with
  | none => .ok (near, far)
  | some partner => do .ok (near.erase key, ← far.remove partner)

/-- The tables with a pair put: the pair of its code is evicted, and then that of its value. -/
def put (tables : SecurityTables) (key value : String) :
    Except (MissingKey String) SecurityTables := do
  let (forward, inverse) ← evict key tables.forward tables.inverse
  let (inverse, forward) ← evict value inverse forward
  .ok ⟨forward.insert key value, inverse.insert value key⟩

/-- The two tables hold the same pairs. -/
def IsMirrored (tables : SecurityTables) : Prop := tables.forward.Mirrors tables.inverse

theorem isMirrored_empty : empty.IsMirrored := fun _ _ => by simp [empty]

theorem evict_eq_ok {near far : OrderedMap String String} (h : near.Mirrors far) (key : String) :
    evict key near far = .ok (near.erase key, far.eraseValue key) := by
  unfold evict
  split
  · rename_i hkey
    rw [(h.erase_of_get?_eq_none hkey).1, (h.erase_of_get?_eq_none hkey).2]
  · rename_i partner hkey
    rw [OrderedMap.remove_of_get?_eq_some ((h key partner).mp hkey), h.erase_eq_eraseValue hkey]
    rfl

/-- The tables without the pairs that have a code or a value. -/
def without (tables : SecurityTables) (key value : String) : SecurityTables where
  forward := (tables.forward.erase key).eraseValue value
  inverse := (tables.inverse.eraseValue key).erase value

theorem put_eq_ok {tables : SecurityTables} (h : tables.IsMirrored) (key value : String) :
    tables.put key value = .ok ⟨(tables.without key value).forward.insert key value,
      (tables.without key value).inverse.insert value key⟩ := by
  rw [put, evict_eq_ok h]
  show (evict value (tables.inverse.eraseValue key) (tables.forward.erase key) >>= _) = _
  rw [evict_eq_ok (h.erase key).symm]
  rfl

theorem isMirrored_put {tables after : SecurityTables} (h : tables.IsMirrored) {key value : String}
    (hput : tables.put key value = .ok after) : after.IsMirrored := by
  have hwithout : (tables.without key value).IsMirrored := ((h.erase key).symm.erase value).symm
  rw [put_eq_ok h] at hput
  obtain rfl := Except.ok.inj hput
  refine OrderedMap.Mirrors.insert hwithout ?_ ?_
  · refine Option.eq_none_iff_forall_ne_some.mpr fun other hother => ?_
    rw [without, OrderedMap.get?_eraseValue_eq_some_iff, OrderedMap.get?_erase_eq_some_iff] at hother
    exact hother.1.2 rfl
  · refine Option.eq_none_iff_forall_ne_some.mpr fun other hother => ?_
    rw [without, OrderedMap.get?_erase_eq_some_iff] at hother
    exact hother.2 rfl

end SecurityTables

end GeoMetadata
