import GeoMetadata.Proofs.Assignments.Occurrences

/-!
# What a history of calls leaves behind

Values are assigned one at a time, or each to the next occurrence of a template, and a call of the
second kind may end in a fault after it has assigned some of them.  However the calls go, the
assignments record what was written and nothing else: the paths stand in the order of their first
writes, and each has the value that was written to it last (`history_is_recorded`).

The reason is that a call of either kind inserts its writes in order (`after_eq_insertMany`), so
that the assignments after a history are the map of all its writes (`afterCalls_eq_ofList`).
-/

namespace GeoMetadata.Assignments

open OrderedMap (lastInserted?)

/-- A call that assigns values. -/
inductive Call where
  /-- Assigns a value to a path. -/
  | add (path value : String)
  /-- Assigns each value to the next occurrence of a template. -/
  | addEach (values : List String) (template : String) (start : Int)

/-- What a call writes: paths and values in order, as far as the call gets. -/
def Call.writes : Call → List (String × String)
  | .add path value => [(path, value)]
  | .addEach values template start => (occurrences template start values.length).zip values

/-- The assignments after a call, be it that it ends in a fault. -/
def after (m : Assignments) : Call → Assignments
  | .add path value => m.insert path value
  | .addEach values template start => (m.assignEach template start values).1

/-- The assignments after some calls, beginning with none. -/
def afterCalls (calls : List Call) : Assignments := calls.foldl after .empty

theorem after_eq_insertMany (m : Assignments) (call : Call) :
    m.after call = m.insertMany call.writes := by
  cases call with
  | add path value => rfl
  | addEach values template start => exact fst_assignEach m values

theorem afterCalls_eq_ofList (calls : List Call) :
    afterCalls calls = .ofList (calls.flatMap Call.writes) := by
  have hrun (m : Assignments) : calls.foldl after m = m.insertMany (calls.flatMap Call.writes) := by
    induction calls generalizing m with
    | nil => rfl
    | cons call calls ih =>
        rw [List.foldl_cons, ih, after_eq_insertMany, List.flatMap_cons, OrderedMap.insertMany_append]
  exact hrun .empty

/-- The assignments tell what was written. -/
structure Records (m : Assignments) (writes : List (String × String)) : Prop where
  /-- The paths are those that were written, each once, in the order of their first writes. -/
  keys : m.keys = (writes.map Prod.fst).eraseDups
  /-- A path has the value that was written to it last, if one was. -/
  value : ∀ path, m.get? path = lastInserted? path writes
  contains : ∀ path, m.contains path = true ↔ path ∈ m.keys
  size : m.size = m.keys.length
  entries : m.entries.map (fun entry => (entry.1, some entry.2)) =
    m.keys.map fun path => (path, m.get? path)

/-- Adding a value to a path leaves the slots of all paths and the values of all others. -/
structure LeavesOthers (before after : Assignments) (path : String) : Prop where
  slots : ∀ (i : Nat) other, before.keys[i]? = some other → after.keys[i]? = some other
  values : ∀ other, other ≠ path → after.get? other = before.get? other

theorem records_ofList (writes : List (String × String)) : Records (.ofList writes) writes where
  keys := OrderedMap.keys_ofList writes
  value := OrderedMap.get?_ofList writes
  contains path := by
    rw [OrderedMap.contains, Option.isSome_iff_ne_none, Ne, OrderedMap.get?_eq_none_iff, not_not]
  size := (List.length_map _).symm
  entries := by
    rw [OrderedMap.keys, List.map_map]
    refine List.map_congr_left fun entry hentry => ?_
    rw [Function.comp_apply, OrderedMap.get?_eq_some_iff.mpr hentry]

theorem leavesOthers_insert (m : Assignments) (path value : String) :
    LeavesOthers m (m.insert path value) path where
  slots i other h := by
    rw [OrderedMap.keys_insert]
    split
    · exact h
    · rw [List.getElem?_append_left (List.getElem?_eq_some_iff.mp h).1, h]
  values other hother := by
    rw [OrderedMap.get?_insert, if_neg (Ne.symm hother)]

/-- However calls go that assign values, the assignments record what was written: the paths in the
order of their first writes, with the values written last.  Adding a value moves no path and changes
no other value. -/
theorem history_is_recorded (calls : List Call) :
    Records (afterCalls calls) (calls.flatMap Call.writes) ∧
    ∀ m : Assignments, ∀ path value, LeavesOthers m (m.after (.add path value)) path :=
  ⟨afterCalls_eq_ofList calls ▸ records_ofList _, leavesOthers_insert⟩

/-- A path that is written again keeps its place, and a call that is refused leaves nothing. -/
example : (afterCalls [.add "/r/a" "1", .addEach ["2"] "/r/b[%index%]" 0, .add "/r/c" "3",
    .add "/r/a" "4"]).entries = [("/r/a", "4"), ("/r/c", "3")] := by decide

end GeoMetadata.Assignments
