import GeoMetadata.Proofs.Security.Mapping
import Mathlib.Data.List.Induction
import Mathlib.Data.Set.Card

/-!
# The pairs that survive

Which pairs does a mapping hold after many were put?  A pair survives if nothing but the same pair
was put later with its code or its value (`Survives`).  One more put takes the pairs with its code
or its value from the survivors and adds its own pair (`survives_concat`), and it does the same with
the pairs of a mapping (`mem_pairs_put`).  So by induction on what was put, from its end, the pairs
of the mapping are the survivors (`mem_pairs_putAll`).

The tables of the mapping take the same steps, none of which fails (`putAll_tables`).
-/

namespace GeoMetadata

/-- The tables with some pairs put, in order. -/
def SecurityTables.putAll (tables : SecurityTables) (puts : List (String × String)) :
    Except (OrderedMap.MissingKey String) SecurityTables :=
  puts.foldlM (fun tables pair => tables.put pair.1 pair.2) tables

namespace SecurityMapping

variable {m : SecurityMapping} {puts : List (String × String)} {pair : String × String}

/-! ## Survivors -/

/-- The pair was put, and nothing else was put later with its code or its value. -/
def Survives (puts : List (String × String)) (pair : String × String) : Prop :=
  ∃ before after, puts = before ++ pair :: after ∧
    ∀ later ∈ after, later.1 = pair.1 ∨ later.2 = pair.2 → later = pair

theorem survives_concat {last : String × String} :
    Survives (puts ++ [last]) pair ↔
      Survives puts pair ∧ pair.1 ≠ last.1 ∧ pair.2 ≠ last.2 ∨ pair = last := by
  constructor
  · rintro ⟨before, after, hputs, hafter⟩
    rcases List.eq_nil_or_concat after with rfl | ⟨middle, final, rfl⟩
    · exact .inr (List.singleton_inj.mp (List.append_inj_right' hputs rfl)).symm
    · -- The last put comes after the pair: it is the same pair, or it shares nothing with it.
      rw [List.concat_eq_append] at hputs hafter
      obtain ⟨rfl, hlast⟩ : puts = before ++ pair :: middle ∧ [last] = [final] :=
        List.append_inj' (by simpa using hputs) rfl
      obtain rfl := List.singleton_inj.mp hlast
      rw [List.forall_mem_append, List.forall_mem_singleton] at hafter
      by_cases hshared : last.1 = pair.1 ∨ last.2 = pair.2
      · exact .inr (hafter.2 hshared).symm
      · rw [not_or] at hshared
        exact .inl ⟨⟨before, middle, rfl, hafter.1⟩, Ne.symm hshared.1, Ne.symm hshared.2⟩
  · rintro (⟨⟨before, after, rfl, hafter⟩, hcode, hvalue⟩ | rfl)
    · refine ⟨before, after ++ [last], by simp, ?_⟩
      rw [List.forall_mem_append, List.forall_mem_singleton]
      exact ⟨hafter, fun hshared => (hshared.elim hcode.symm hvalue.symm).elim⟩
    · exact ⟨puts, [], rfl, by simp⟩

/-! ## Putting pairs -/

/-- The mapping with some pairs put, in order. -/
def putAll (m : SecurityMapping) (puts : List (String × String)) : SecurityMapping :=
  puts.foldl (fun m pair => m.put pair.1 pair.2) m

theorem mem_pairs_put {key value : String} :
    pair ∈ (m.put key value).pairs ↔
      pair ∈ m.pairs ∧ pair.1 ≠ key ∧ pair.2 ≠ value ∨ pair = (key, value) := by
  rw [pairs_put, List.mem_append, List.mem_singleton, kept, List.mem_filter, decide_eq_true_eq]

theorem mem_pairs_putAll : pair ∈ (empty.putAll puts).pairs ↔ Survives puts pair := by
  induction puts using List.reverseRecOn with
  | nil => simp [putAll, empty, pairs, SecurityTables.empty, OrderedMap.empty, Survives]
  | append_singleton puts last ih =>
      rw [survives_concat, ← ih, putAll, List.foldl_append]
      exact mem_pairs_put

/-- The tables of a mapping take any pairs. -/
theorem putAll_tables (m : SecurityMapping) (puts : List (String × String)) :
    m.tables.putAll puts = .ok (m.putAll puts).tables := by
  induction puts generalizing m with
  | nil => rfl
  | cons pair rest ih =>
      rw [SecurityTables.putAll, List.foldlM_cons, tables_put]
      exact ih (m.put pair.1 pair.2)

theorem foldl_putEntry_eq_putAll (m : SecurityMapping) (entries : List String) :
    entries.foldl putEntry m = m.putAll (entries.filterMap pairOf?) := by
  induction entries generalizing m with
  | nil => rfl
  | cons entry rest ih =>
      rw [List.foldl_cons, ih, List.filterMap_cons, putEntry]
      cases pairOf? entry <;> rfl

/-- A mapping is given by the pairs of its entries. -/
theorem ofList_eq_putAll (entries : List String) :
    ofList entries = empty.putAll (entries.filterMap pairOf?) := foldl_putEntry_eq_putAll _ _

theorem mem_pairs_ofList {entries : List String} :
    pair ∈ (ofList entries).pairs ↔ Survives (entries.filterMap pairOf?) pair := by
  rw [ofList_eq_putAll, mem_pairs_putAll]

/-! ## What a mapping holds -/

/-- The mapping holds exactly some pairs, in both directions. -/
structure Holds (m : SecurityMapping) (stored : Set (String × String)) : Prop where
  /-- The two directions are inverse to each other. -/
  inverse : ∀ code value, m.get? code = some value ↔ m.codeOf? value = some code
  content : ∀ code value, m.get? code = some value ↔ (code, value) ∈ stored
  size : m.size = stored.ncard

theorem holds_of_mem_pairs {stored : Set (String × String)}
    (h : ∀ pair, pair ∈ m.pairs ↔ pair ∈ stored) : m.Holds stored where
  inverse := m.mirrored
  content code value := get?_eq_some_iff.trans (h (code, value))
  size := by
    have hstored : stored = (m.pairs.toFinset : Set (String × String)) := by
      ext pair
      rw [List.coe_toFinset]
      exact (h pair).symm
    rw [hstored, Set.ncard_coe_finset, List.toFinset_card_of_nodup m.keys_nodup.of_map]
    rfl

theorem holds_putAll (puts : List (String × String)) :
    (empty.putAll puts).Holds {pair | Survives puts pair} :=
  holds_of_mem_pairs fun _ => mem_pairs_putAll

/-- What an entry is given as: a text, or null. -/
def entryValue (entry : Option String) : Value := entry.elim .null .text

/-- The pairs that some entries give, in order. -/
def pairsOf (given : List (Option String)) : List (String × String) :=
  given.filterMap fun entry => entry.bind pairOf?

theorem entriesOf_map_entryValue (given : List (Option String)) :
    entriesOf (given.map entryValue) = .ok (given.filterMap id) := by
  rw [entriesOf]
  induction given with
  | nil => rfl
  | cons entry rest ih =>
      rw [List.map_cons, List.filterMapM_cons, ih]
      cases entry <;> rfl

/-- Whatever pairs are put in a row, and whatever entries a mapping is given by, the tables never
miss a key that they are made to give up; in the end they are inverse to each other and hold the
pairs that survive.  The pairs of the entries are put in their order: those of the entries with one
equals sign and a text on both sides of it. -/
theorem puts_leave_survivors :
    (∀ puts : List (String × String),
      SecurityTables.empty.putAll puts = .ok (empty.putAll puts).tables ∧
        (empty.putAll puts).Holds {pair | Survives puts pair}) ∧
    (∀ given : List (Option String),
      ∃ entries, entriesOf (given.map entryValue) = .ok entries ∧
        SecurityTables.empty.putAll (pairsOf given) = .ok (ofList entries).tables ∧
        (ofList entries).Holds {pair | Survives (pairsOf given) pair}) ∧
    ∀ (entry : String) (pair : String × String),
      pairOf? entry = some pair ↔ entry = entryOf pair ∧ IsSpelled pair := by
  refine ⟨fun puts => ⟨putAll_tables empty puts, holds_putAll puts⟩, fun given => ?_,
    fun _ _ => pairOf?_eq_some_iff⟩
  have hpairs : (given.filterMap id).filterMap pairOf? = pairsOf given := List.filterMap_filterMap
  refine ⟨given.filterMap id, entriesOf_map_entryValue given, ?_⟩
  rw [ofList_eq_putAll, hpairs]
  exact ⟨putAll_tables empty _, holds_putAll _⟩

-- The second pair takes the code of the first, and the third takes its value.
example : (empty.putAll [("secret", "S"), ("secret", "SECRET"), ("other", "SECRET")]).pairs =
    [("other", "SECRET")] := by decide

end SecurityMapping

end GeoMetadata
