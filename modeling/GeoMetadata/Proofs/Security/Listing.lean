import GeoMetadata.Proofs.Security.Mapping
import GeoMetadata.Security.Classification
import Mathlib.Data.List.Nodup

/-!
# Mappings listed as entries

A mapping lists its pairs as entries in the order of their codes.  The order is strict, because no
code stands twice (`pairwise_listed`), so that the list is determined by the pairs.  The entries
give the mapping again (`agrees_ofList_toList`) and are listed as they were
(`toList_ofList_toList`).  What a mapping says about records therefore hangs on its list alone.
-/

namespace GeoMetadata.SecurityMapping

open Classification (government?)

variable {m other : SecurityMapping}

/-! ## The order of the entries -/

theorem pairwise_le_listed (m : SecurityMapping) :
    m.listed.Pairwise fun p q => decide (p.1 ≤ q.1) = true := by
  refine List.pairwise_mergeSort (fun p q r hpq hqr => ?_) (fun p q => ?_) m.pairs
  · exact decide_eq_true (String.le_trans (of_decide_eq_true hpq) (of_decide_eq_true hqr))
  · simpa using String.le_total p.1 q.1

theorem pairwise_listed (m : SecurityMapping) : (m.listed.map Prod.fst).Pairwise (· < ·) := by
  have hkeys : m.listed.Pairwise fun p q => p.1 ≠ q.1 :=
    List.pairwise_map.mp ((m.perm_listed.map Prod.fst).nodup_iff.mpr m.keys_nodup)
  refine List.pairwise_map.mpr (m.pairwise_le_listed.imp₂ (fun p q hle hne => ?_) hkeys)
  exact String.not_le.mp fun hge => hne (String.le_antisymm (of_decide_eq_true hle) hge)

theorem mem_listed_iff {code value : String} :
    (code, value) ∈ m.listed ↔ m.get? code = some value :=
  m.perm_listed.mem_iff.trans get?_eq_some_iff.symm

/-- The lines are the entries of a mapping, each of them once, in the order of their codes. -/
structure Lists (m : SecurityMapping) (lines : List String) (listed : List (String × String)) :
    Prop where
  spelled : lines = listed.map entryOf
  ascending : (listed.map Prod.fst).Pairwise (· < ·)
  pairs : ∀ code value, (code, value) ∈ listed ↔ m.get? code = some value
  /-- No entry stands twice. -/
  once : lines.Nodup

theorem lists_toList (h : ∀ pair ∈ m.pairs, IsSpelled pair) : m.Lists m.toList m.listed where
  spelled := rfl
  ascending := m.pairwise_listed
  pairs _ _ := mem_listed_iff
  once := by
    have hread : m.toList.map pairOf? = m.listed.map some := by
      rw [toList, List.map_map]
      refine List.map_congr_left fun pair hpair => ?_
      exact pairOf?_eq_some_iff.mpr ⟨rfl, h pair (m.perm_listed.mem_iff.mp hpair)⟩
    have hnodup : m.listed.Nodup := m.perm_listed.nodup_iff.mpr m.keys_nodup.of_map
    exact .of_map pairOf? (hread ▸ hnodup.map fun _ _ => Option.some.inj)

/-! ## Reading the entries again -/

/-- Two mappings answer alike in both directions, and they are of one size. -/
structure Agrees (m other : SecurityMapping) : Prop where
  get? : ∀ code, m.get? code = other.get? code
  codeOf? : ∀ value, m.codeOf? value = other.codeOf? value
  size : m.size = other.size

theorem agrees_ofList_toList (h : ∀ pair ∈ m.pairs, IsSpelled pair) :
    (ofList m.toList).Agrees m where
  get? code := Option.ext fun value => by
    rw [get?_eq_some_iff, get?_eq_some_iff, (perm_pairs_ofList_toList h).mem_iff]
  codeOf? := codeOf?_ofList_toList h
  size := (perm_pairs_ofList_toList h).length_eq

theorem toList_ofList_toList (h : ∀ pair ∈ m.pairs, IsSpelled pair) :
    (ofList m.toList).toList = m.toList := by
  rw [toList, pairs_ofList_toList h, List.mergeSort_of_pairwise m.pairwise_le_listed]
  rfl

/-- Resolving a code looks at a mapping only for the codes of values. -/
theorem government?_eq_of_codeOf?_eq (h : ∀ value, m.codeOf? value = other.codeOf? value)
    (attr : String) (record : Record) : government? attr m record = government? attr other record := by
  have hcodes : m.codeOf? = other.codeOf? := funext h
  simp only [government?, Classification.governmentChain, Classification.firstResolved?,
    List.findSome?_cons, Classification.governmentFrom?, hcodes]

/-- The mapping of any entries is the mapping of its own list, which holds its pairs in the strict
order of their codes and is listed as it is.  Mappings with the same list resolve every record
alike. -/
theorem toList_determines_mapping (entries : List String) :
    (ofList (ofList entries).toList).Agrees (ofList entries) ∧
    (∃ pairs, (ofList entries).Lists (ofList entries).toList pairs) ∧
    (ofList (ofList entries).toList).toList = (ofList entries).toList ∧
    ∀ others : List String, (ofList others).toList = (ofList entries).toList →
      ∀ (attr : String) (record : Record),
        government? attr (ofList others) record = government? attr (ofList entries) record := by
  have hspelled (entries : List String) := isSpelled_ofList entries
  refine ⟨agrees_ofList_toList (hspelled entries), ⟨_, lists_toList (hspelled entries)⟩,
    toList_ofList_toList (hspelled entries), fun others hlist attr record => ?_⟩
  refine government?_eq_of_codeOf?_eq (fun value => ?_) attr record
  calc (ofList others).codeOf? value
      = (ofList (ofList others).toList).codeOf? value :=
        ((agrees_ofList_toList (hspelled others)).codeOf? value).symm
    _ = (ofList (ofList entries).toList).codeOf? value := by rw [hlist]
    _ = (ofList entries).codeOf? value :=
        (agrees_ofList_toList (hspelled entries)).codeOf? value

theorem sample_toList_determines_mapping :
    (ofList ["topSecret=T", "official=S", "secret=S"]).toList =
        (ofList ["secret=S", "topSecret=T"]).toList ∧
      ∀ (attr : String) (record : Record),
        government? attr (ofList ["topSecret=T", "official=S", "secret=S"]) record =
          government? attr (ofList ["secret=S", "topSecret=T"]) record := by
  have hlist : (ofList ["topSecret=T", "official=S", "secret=S"]).toList =
      (ofList ["secret=S", "topSecret=T"]).toList := by
    have hfirst : (ofList ["topSecret=T", "official=S", "secret=S"]).pairs =
        [("topSecret", "T"), ("secret", "S")] := by decide
    have hsecond : (ofList ["secret=S", "topSecret=T"]).pairs =
        [("secret", "S"), ("topSecret", "T")] := by decide
    rw [toList, toList, hfirst, hsecond]
    simp [List.mergeSort]
  obtain ⟨-, -, -, hsame⟩ := toList_determines_mapping ["secret=S", "topSecret=T"]
  exact ⟨hlist, hsame _ hlist⟩

end GeoMetadata.SecurityMapping
