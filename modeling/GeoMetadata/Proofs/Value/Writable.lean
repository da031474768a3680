import GeoMetadata.Proofs.Number.IntegerText
import GeoMetadata.Value.Text

/-!
# The values that have a text

A value has a text unless an integer within it, at any depth, has too many digits.  The text is
made by recursion on the value, on the items of a list and on the entries of a map, and
`succeeds_literal` goes along with it.
-/

namespace GeoMetadata

namespace Value

mutual

/-- The integers within a value, in the order of its text. -/
def integers : Value → List Int
  | int n => [n]
  | list items => itemIntegers items
  | map entries => entryIntegers entries
  | _ => []

/-- The integers within some values. -/
def itemIntegers : List Value → List Int
  | [] => []
  | item :: rest => item.integers ++ itemIntegers rest

/-- The integers within the keys and values of a map. -/
def entryIntegers : List (Value × Value) → List Int
  | [] => []
  | (key, value) :: rest => key.integers ++ value.integers ++ entryIntegers rest

end

/-- Every integer within the value can be written. -/
def Writable (value : Value) : Prop :=
  ∀ n ∈ value.integers, n.natAbs < Number.unwritableMagnitude

instance (value : Value) : Decidable value.Writable :=
  inferInstanceAs (Decidable (∀ n ∈ value.integers, n.natAbs < Number.unwritableMagnitude))

mutual

theorem succeeds_literal (value : Value) : Succeeds value.literal ↔ value.Writable := by
  cases value with
  | null => simp [literal, Writable, integers]
  | bool b => cases b <;> simp [literal, Writable, integers]
  | int n => simp [literal, Writable, integers, Number.succeeds_integerText]
  | float x => simp [literal, Writable, integers]
  | text s => simp [literal, Writable, integers]
  | date d => simp [literal, Writable, integers]
  | moment t => simp [literal, Writable, integers]
  | list items =>
      rw [literal, succeeds_bind_of_iff fun _ _ => iff_true_intro (succeeds_ok _), and_true]
      exact succeeds_itemLiterals items
  | map entries =>
      rw [literal, succeeds_bind_of_iff fun _ _ => iff_true_intro (succeeds_ok _), and_true]
      exact succeeds_entryLiterals entries

theorem succeeds_itemLiterals (items : List Value) :
    Succeeds (itemLiterals items) ↔
      ∀ n ∈ itemIntegers items, n.natAbs < Number.unwritableMagnitude := by
  cases items with
  | nil => simp [itemLiterals, itemIntegers]
  | cons item rest =>
      rw [itemLiterals, succeeds_bind_of_iff fun _ _ =>
        succeeds_bind_of_iff fun _ _ => iff_true_intro (succeeds_ok _)]
      rw [succeeds_literal item, succeeds_itemLiterals rest, itemIntegers, List.forall_mem_append,
        and_true, Writable]

theorem succeeds_entryLiterals (entries : List (Value × Value)) :
    Succeeds (entryLiterals entries) ↔
      ∀ n ∈ entryIntegers entries, n.natAbs < Number.unwritableMagnitude := by
  cases entries with
  | nil => simp [entryLiterals, entryIntegers]
  | cons entry rest =>
      obtain ⟨key, value⟩ := entry
      rw [entryLiterals, succeeds_bind_of_iff fun _ _ => succeeds_bind_of_iff fun _ _ =>
        succeeds_bind_of_iff fun _ _ => iff_true_intro (succeeds_ok _)]
      rw [succeeds_literal key, succeeds_literal value, succeeds_entryLiterals rest, entryIntegers,
        List.forall_mem_append, List.forall_mem_append, and_true, and_assoc, Writable, Writable]

end

/-- A value has a text exactly if every integer within it can be written. -/
theorem succeeds_display {value : Value} : Succeeds value.display ↔ value.Writable := by
  cases value with
  | text s => simp [display, Writable, integers]
  | date d => simp [display, Writable, integers]
  | moment t => simp [display, Writable, integers]
  | _ => exact succeeds_literal _

end Value

end GeoMetadata
