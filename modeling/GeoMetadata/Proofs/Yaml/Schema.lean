import GeoMetadata.Proofs.Outcome
import GeoMetadata.Yaml.Schema

/-!
# Where the values of YAML fail

The value of a text fails on the form of the text, on a tag or on a key, or it fails with the fault
of one of its scalars (`failsWith_value`, along the recursion of values over nodes).
-/

namespace GeoMetadata.Yaml

mutual

/-- The scalars within a node: tag, whether plain, and text. -/
def Node.scalars : Node → List (Option String × Bool × String)
  | .scalar tag isPlain text => [(tag, isPlain, text)]
  | .sequence _ items => itemScalars items
  | .mapping _ entries => entryScalars entries

/-- The scalars within some nodes. -/
def itemScalars : List Node → List (Option String × Bool × String)
  | [] => []
  | item :: rest => item.scalars ++ itemScalars rest

/-- The scalars within the entries of a mapping. -/
def entryScalars : List (Node × Node) → List (Option String × Bool × String)
  | [] => []
  | (key, value) :: rest => key.scalars ++ value.scalars ++ entryScalars rest

end

/-- The fault is one of form, or that of one of these scalars. -/
def IsFaultOf (scalars : List (Option String × Bool × String)) (fault : Fault) : Prop :=
  fault = .form ∨ ∃ scalar ∈ scalars, ∃ kind,
    scalarKind? scalar.1 scalar.2.1 scalar.2.2 = some kind ∧
      readScalar kind scalar.2.2 = .error fault

variable {fault : Fault}

theorem isFaultOf_form (scalars : List (Option String × Bool × String)) :
    IsFaultOf scalars .form := .inl rfl

theorem IsFaultOf.of_subset {some all : List (Option String × Bool × String)}
    (h : IsFaultOf some fault) (hsubset : some ⊆ all) : IsFaultOf all fault := by
  obtain hform | ⟨scalar, hscalar, hfault⟩ := h
  · exact .inl hform
  · exact .inr ⟨scalar, hsubset hscalar, hfault⟩

theorem failsWith_within {some all : List (Option String × Bool × String)} {α : Type}
    {e : Except Fault α} (h : FailsWith (IsFaultOf some) e) (hsubset : some ⊆ all) :
    FailsWith (IsFaultOf all) e :=
  h.imp fun _ hfault => hfault.of_subset hsubset

theorem failsWith_distinctMap (done entries : List (Value × Value)) :
    FailsWith (· = .form) (distinctMap done entries) := by
  induction entries generalizing done with
  | nil => exact failsWith_ok _ _
  | cons entry rest ih =>
      unfold distinctMap
      split
      · exact failsWith_error.mpr rfl
      · exact ih _

mutual

theorem failsWith_value (node : Node) : FailsWith (IsFaultOf node.scalars) node.value := by
  cases node with
  | scalar tag isPlain text =>
      unfold Node.value
      split
      · rename_i kind hkind
        exact fun fault hfault => .inr ⟨_, List.mem_singleton_self _, kind, hkind, hfault⟩
      · exact failsWith_error.mpr (isFaultOf_form _)
  | sequence tag items =>
      unfold Node.value
      split
      · exact (failsWith_itemValues items).map _
      · exact failsWith_error.mpr (isFaultOf_form _)
  | mapping tag entries =>
      have hentries := failsWith_entryValues entries
      unfold Node.value
      split
      · split
        · rename_i fault hfault
          exact failsWith_error.mpr (hentries fault hfault)
        · exact fun fault hfault => .inl (failsWith_distinctMap _ _ fault hfault)
        · exact failsWith_ok _ _
      · exact failsWith_error.mpr (isFaultOf_form _)

theorem failsWith_itemValues (items : List Node) :
    FailsWith (IsFaultOf (itemScalars items)) (itemValues items) := by
  cases items with
  | nil =>
      rw [itemValues]
      exact failsWith_ok _ _
  | cons item rest =>
      rw [itemValues]
      have hitem := failsWith_within (failsWith_value item)
        (List.subset_append_left _ (itemScalars rest))
      have hrest := failsWith_within (failsWith_itemValues rest)
        (List.subset_append_right item.scalars _)
      exact hitem.bind fun _ _ => hrest.bind fun _ _ => failsWith_ok _ _

theorem failsWith_keyValue (node : Node) : FailsWith (IsFaultOf node.scalars) (keyValue node) := by
  cases node with
  | scalar tag isPlain text =>
      rw [keyValue]
      split
      · exact failsWith_ok _ _
      · exact failsWith_value (.scalar tag isPlain text)
  | sequence tag items =>
      rw [keyValue]
      refine (failsWith_value (.sequence tag items)).bind fun key _ => ?_
      split
      · exact failsWith_ok _ _
      · exact failsWith_error.mpr (isFaultOf_form _)
  | mapping tag entries =>
      rw [keyValue]
      exact failsWith_error.mpr (isFaultOf_form _)

theorem failsWith_entryValues (entries : List (Node × Node)) :
    FailsWith (IsFaultOf (entryScalars entries)) (entryValues entries) := by
  cases entries with
  | nil =>
      rw [entryValues]
      exact failsWith_ok _ _
  | cons entry rest =>
      obtain ⟨key, value⟩ := entry
      have hkey : key.scalars ⊆ entryScalars ((key, value) :: rest) := by simp [entryScalars]
      have hvalue : value.scalars ⊆ entryScalars ((key, value) :: rest) := by simp [entryScalars]
      have hsubset : entryScalars rest ⊆ entryScalars ((key, value) :: rest) := by
        simp [entryScalars]
      have hrest := failsWith_within (failsWith_entryValues rest) hsubset
      rw [entryValues]
      split
      · refine (failsWith_within (failsWith_mergeSource value) hvalue).bind fun merged _ =>
          hrest.bind fun others _ => ?_
        split
        · exact failsWith_ok _ _
        · split
          · exact failsWith_error.mpr (isFaultOf_form _)
          · exact failsWith_ok _ _
      · exact (failsWith_within (failsWith_keyValue key) hkey).bind fun _ _ =>
          (failsWith_within (failsWith_value value) hvalue).bind fun _ _ =>
            hrest.bind fun _ _ => failsWith_ok _ _

theorem failsWith_mergeSource (node : Node) :
    FailsWith (IsFaultOf node.scalars) (mergeSource node) := by
  cases node with
  | scalar tag isPlain text =>
      rw [mergeSource]
      exact failsWith_error.mpr (isFaultOf_form _)
  | sequence tag items =>
      rw [mergeSource]
      exact failsWith_mergeItems items
  | mapping tag entries =>
      rw [mergeSource]
      exact (failsWith_entryValues entries).map _

theorem failsWith_mergeItems (items : List Node) :
    FailsWith (IsFaultOf (itemScalars items)) (mergeItems items) := by
  rcases items with _ | ⟨_ | _ | ⟨tag, entries⟩, rest⟩
  · rw [mergeItems]
    exact failsWith_ok _ _
  · rw [mergeItems]
    · exact failsWith_error.mpr (isFaultOf_form _)
    · nofun
  · rw [mergeItems]
    · exact failsWith_error.mpr (isFaultOf_form _)
    · nofun
  · have hentries : entryScalars entries ⊆ itemScalars (.mapping tag entries :: rest) := by
      simp [itemScalars, Node.scalars]
    have hsubset : itemScalars rest ⊆ itemScalars (.mapping tag entries :: rest) := by
      simp [itemScalars]
    have hrest := failsWith_within (failsWith_mergeItems rest) hsubset
    rw [mergeItems]
    exact (failsWith_within (failsWith_entryValues entries) hentries).bind fun _ _ =>
      hrest.bind fun _ _ => failsWith_ok _ _

end

/-- The node of the text has a scalar without a value. -/
def HasVoidScalar (text : List Char) : Prop :=
  ∃ node, (Token.scan text).bind Node.ofTokens? = some (some node) ∧
    ∃ scalar ∈ node.scalars, ∃ kind fault,
      scalarKind? scalar.1 scalar.2.1 scalar.2.2 = some kind ∧
        readScalar kind scalar.2.2 = .error fault

/-- A text that is well formed has a value unless one of its scalars has none. -/
theorem hasVoidScalar_of_read {text : List Char} (h : read text = .error fault)
    (hform : fault ≠ .form) : HasVoidScalar text := by
  unfold read at h
  split at h
  · cases h
    exact absurd rfl hform
  · cases h
  · rename_i node hnode
    obtain hmalformed | ⟨scalar, hscalar, kind, hkind, hfault⟩ := failsWith_value node fault h
    · exact absurd hmalformed hform
    · exact ⟨node, hnode, scalar, hscalar, kind, fault, hkind, hfault⟩

end GeoMetadata.Yaml
