import Mathlib.Data.List.Nodup
import GeoMetadata.Proofs.Xml.Building
import GeoMetadata.Proofs.Xml.Reading

/-!
# Names are shown as they are given

An element shows a name with a prefix that its namespace has around it.  If the declarations in
scope give every namespace one prefix (`Shows`), then this is the prefix that the name is given
with, and nothing more is declared.  `IsShown` gathers what finding a name, writing it and reading
it come to. Names that are found alike are the same (`IsShown.eq_of_nameOf_eq`), so that no
attribute replaces another one (`buildAttributes_eq`) and none is refused as a second one of its
name (`expandAttributes?_map_safeEntry`).
-/

namespace GeoMetadata.Xml

open Text

variable {scope : List Declaration}

/-! ## Names -/

/-- A name as the rules of namespaces put it. -/
def nameOf (scope : List Declaration) (isAttribute : Bool) (name : String) : Name :=
  (expand? scope isAttribute name).getD ⟨none, name⟩

/-- The written declarations give the namespaces in scope back the prefixes that they have there. -/
structure Shows (scope : List Declaration) (prefixes : List String) (frames : Frames) : Prop where
  declares : Declares scope prefixes
  parts : ∀ declared ∈ prefixes, isNamePart declared = true ∧ declared ≠ "xml"
  plain : ∀ declaration ∈ scope, declaration.2 ≠ xmlNamespace
  shown : ∀ declaration ∈ scope, ∀ isAttribute, (isAttribute = true → declaration.1 ≠ none) →
    frames.prefixFor? isAttribute declaration.2 = some declaration.1

/-- An element that declares nothing shows what is shown around it. -/
theorem Shows.nested {prefixes : List String} {frames : Frames} (h : Shows scope prefixes frames) :
    Shows scope prefixes ([] :: frames) where
  declares := h.declares
  parts := h.parts
  plain := h.plain
  shown := by
    intro declaration hdeclaration isAttribute hfit
    have hshown := h.shown declaration hdeclaration isAttribute hfit
    rw [Frames.prefixFor?, List.find?_nil]
    simp only [hshown, Option.filter_some]
    rfl

/-- The name is found in the declarations, and it is read as it was found. It is shown as it is
given, and nothing is declared for it. -/
structure IsShown (scope : List Declaration) (frames : Frames) (isAttribute : Bool)
    (name : String) : Prop where
  found : nameIn scope isAttribute name = .ok (nameOf scope isAttribute name)
  read : expand? scope isAttribute name = some (nameOf scope isAttribute name)
  part : isNamePart (nameOf scope isAttribute name).part = true
  reference : (nameOf scope isAttribute name).uri.all Uri.isReference = true
  shown : ∀ next, shownIn isAttribute (nameOf scope isAttribute name) frames next =
    ((splitQualified name).1, frames, next)
  spelled : String.ofList (shownName (splitQualified name).1 (nameOf scope isAttribute name).part) =
    name
  prefixed : isPrefixedName name = true

section Shown

variable {prefixes : List String} {frames : Frames} {isAttribute : Bool} {name : String}

/-- What a name is found as, read as and shown as, in one step. -/
theorem isShown_of_eq {found : Name} (hfound : nameIn scope isAttribute name = .ok found)
    (hread : expand? scope isAttribute name = some found) (hpart : isNamePart found.part = true)
    (hreference : found.uri.all Uri.isReference = true)
    (hshown : ∀ next, shownIn isAttribute found frames next = ((splitQualified name).1, frames, next))
    (hspelled : String.ofList (shownName (splitQualified name).1 found.part) = name)
    (hprefixed : isPrefixedName name = true) : IsShown scope frames isAttribute name := by
  have hname : nameOf scope isAttribute name = found := by
    rw [nameOf, hread, Option.getD_some]
  exact ⟨hname ▸ hfound, hname ▸ hread, hname ▸ hpart, hname ▸ hreference, hname ▸ hshown,
    hname ▸ hspelled, hprefixed⟩

theorem Shows.shownIn_eq {declaration : Declaration} {part : String} {next : Nat}
    (h : Shows scope prefixes frames) (hdeclaration : declaration ∈ scope)
    (hfit : isAttribute = true → declaration.1 ≠ none) :
    shownIn isAttribute ⟨some declaration.2, part⟩ frames next = (declaration.1, frames, next) := by
  have hshown := h.shown declaration hdeclaration isAttribute hfit
  simp only [shownIn, choosePrefix, if_neg (h.plain declaration hdeclaration), hshown]

theorem Declares.defaultUri?_eq (h : Declares scope prefixes) :
    defaultUri? scope = entryValue? none scope := by
  rw [defaultUri?]
  cases hdefault : entryValue? none scope with
  | none => rfl
  | some uri =>
      have huri := h.namespaces _ (mem_of_entryValue?_eq_some hdefault)
      rw [Option.filter_some, if_pos (decide_eq_true (ne_empty_of_isNamespace huri))]

theorem Shows.isShown_of_part (h : Shows scope prefixes frames)
    (hsplit : splitQualified name = (none, name)) (hpart : isNamePart name = true) :
    IsShown scope frames isAttribute name := by
  have hread : expand? scope isAttribute name = some ⟨plainUri? scope isAttribute, name⟩ := by
    simp only [expand?, hsplit, h.declares.defaultUri?_eq, plainUri?]
  refine isShown_of_eq (h.declares.nameIn_of_part isAttribute hsplit hpart) hread hpart ?_
    (fun next => ?_) ?_ ?_
  · cases hplain : plainUri? scope isAttribute with
    | none => rfl
    | some uri => exact isReference_of_isNamespace (h.declares.isNamespace_of_plainUri? hplain).2
  · rw [hsplit]
    cases hplain : plainUri? scope isAttribute with
    | none => rfl
    | some uri =>
        have hmem := (h.declares.isNamespace_of_plainUri? hplain).1
        refine h.shownIn_eq hmem fun hattribute => ?_
        rw [hattribute] at hplain
        cases hplain
  · rw [hsplit]
    exact String.ofList_toList
  · rw [isPrefixedName, hsplit]
    exact hpart

theorem Shows.isShown_of_prefix {declared part : String} (h : Shows scope prefixes frames)
    (hdeclared : declared ∈ prefixes) (hsplit : splitQualified name = (some declared, part))
    (hpart : isNamePart part = true) : IsShown scope frames isAttribute name := by
  obtain ⟨hshape, hxml⟩ := h.parts declared hdeclared
  obtain ⟨uri, huri, hnamespace, hfound⟩ :=
    h.declares.nameIn_of_split isAttribute hdeclared hsplit hpart
  have hread : expand? scope isAttribute name = some ⟨some uri, part⟩ := by
    simp [expand?, hsplit, uriOf?, hxml, huri]
  refine isShown_of_eq hfound hread hpart (isReference_of_isNamespace hnamespace)
    (fun next => ?_) ?_ ?_
  · rw [hsplit]
    exact h.shownIn_eq (mem_of_entryValue?_eq_some huri) fun _ => Option.some_ne_none declared
  · rw [hsplit]
    rcases hcut : cutAt ':' name.toList with ⟨before, _ | after⟩
    · simp [splitQualified, hcut] at hsplit
    · simp only [splitQualified, hcut, Prod.mk.injEq, Option.some.injEq] at hsplit
      obtain ⟨rfl, rfl⟩ := hsplit
      rw [shownName, String.toList_ofList, String.toList_ofList, ← eq_append_of_cutAt_eq_some hcut,
        String.ofList_toList]
  · rw [isPrefixedName, hsplit]
    exact Bool.and_eq_true_iff.mpr ⟨hshape, hpart⟩

theorem Shows.isShown (h : Shows scope prefixes frames)
    (hname : isQualifiedName prefixes name = true) : IsShown scope frames isAttribute name := by
  rcases splitQualified_of_isQualifiedName hname with
    ⟨hsplit, hpart⟩ | ⟨declared, hdeclared, part, hsplit, hpart⟩
  · exact h.isShown_of_part hsplit hpart
  · exact h.isShown_of_prefix hdeclared hsplit hpart

/-- Names that are found alike are the same. -/
theorem IsShown.eq_of_nameOf_eq {other : String} (h : IsShown scope frames isAttribute name)
    (hother : IsShown scope frames isAttribute other)
    (heq : nameOf scope isAttribute name = nameOf scope isAttribute other) : name = other := by
  -- What is shown of a name depends on what it is found as.
  have halike : (splitQualified name).1 = (splitQualified other).1 := by
    have hshown := h.shown 0
    rw [heq, hother.shown 0] at hshown
    exact (Prod.mk.inj hshown).1.symm
  calc
    name = String.ofList (shownName (splitQualified name).1 (nameOf scope isAttribute name).part) :=
      h.spelled.symm
    _ = String.ofList (shownName (splitQualified other).1 (nameOf scope isAttribute other).part) := by
      rw [halike, heq]
    _ = other := hother.spelled

end Shown

/-! ## Attributes -/

/-- An attribute as the rules of namespaces put it. -/
def attributeOf (scope : List Declaration) (entry : String × String) : Attribute :=
  ⟨nameOf scope true entry.1, (splitQualified entry.1).1, safe entry.2⟩

/-- An attribute of a document below some declarations. -/
def attributeIn (scope : List Declaration) (entry : String × String) :
    Except BuildFault Attribute := do
  .ok ⟨← nameIn scope true entry.1, (splitQualified entry.1).1, safe entry.2⟩

/-- The entry with the characters of its value that XML can carry. -/
def safeEntry (entry : String × String) : String × String := (entry.1, safe entry.2)

theorem setAttribute_of_forall_ne {new : Attribute} {attributes : List Attribute}
    (hfresh : new.name ∉ attributes.map Attribute.name) :
    setAttribute new attributes = attributes ++ [new] := by
  induction attributes with
  | nil => rfl
  | cons old rest ih =>
      rw [List.map_cons] at hfresh
      have hne : old.name ≠ new.name := (List.ne_of_not_mem_cons hfresh).symm
      rw [setAttribute, if_neg hne, ih (List.not_mem_of_not_mem_cons hfresh), List.cons_append]

section Attributes

variable {frames : Frames} {next : Nat} {entries : List (String × String)}

theorem nodup_map_name_attributeOf (h : ∀ entry ∈ entries, IsShown scope frames true entry.1)
    (hdistinct : (entries.map Prod.fst).Nodup) :
    ((entries.map (attributeOf scope)).map Attribute.name).Nodup := by
  have hnames : (entries.map (attributeOf scope)).map Attribute.name =
      (entries.map Prod.fst).map (nameOf scope true) := by
    rw [List.map_map, List.map_map]
    rfl
  rw [hnames]
  refine hdistinct.map_on fun name hname other hother heq => ?_
  obtain ⟨entry, hentry, rfl⟩ := List.mem_map.mp hname
  obtain ⟨second, hsecond, rfl⟩ := List.mem_map.mp hother
  exact (h entry hentry).eq_of_nameOf_eq (h second hsecond) heq

theorem buildAttributes_eq {done : List Attribute}
    (h : ∀ entry ∈ entries, IsShown scope frames true entry.1)
    (hdistinct : ((done ++ entries.map (attributeOf scope)).map Attribute.name).Nodup) :
    buildAttributes scope entries done frames next =
      .ok (done ++ entries.map (attributeOf scope), frames, next) := by
  induction entries generalizing done with
  | nil =>
      rw [List.map_nil, List.append_nil]
      rfl
  | cons entry rest ih =>
      obtain ⟨hentry, hrest⟩ := List.forall_mem_cons.mp h
      rw [List.map_cons, List.append_cons] at hdistinct ⊢
      -- No attribute before this one has its name, so that it is put at the end.
      have hfresh : (attributeOf scope entry).name ∉ done.map Attribute.name := by
        rw [List.map_append, List.map_append] at hdistinct
        have hlast := (List.nodup_append.mp hdistinct).1
        exact fun hmem => (List.nodup_append.mp hlast).2.2 _ hmem _ List.mem_cons_self rfl
      refine buildAttributes_cons_eq_ok_iff.mpr ⟨_, hentry.found, hentry.part, ?_⟩
      rw [hentry.shown]
      have hset := setAttribute_of_forall_ne hfresh
      rw [attributeOf] at hset
      rw [hset]
      exact ih hrest hdistinct

theorem expandAttributes?_map_safeEntry
    (h : ∀ entry ∈ entries, IsShown scope frames true entry.1)
    (hdistinct : (entries.map Prod.fst).Nodup) :
    expandAttributes? scope (entries.map safeEntry) = some (entries.map (attributeOf scope)) := by
  have hexpanded : ((entries.map safeEntry).mapM fun entry =>
      (expand? scope true entry.1).map fun found =>
        (⟨found, (splitQualified entry.1).1, entry.2⟩ : Attribute)) =
      some (entries.map (attributeOf scope)) := by
    clear hdistinct
    induction entries with
    | nil => rfl
    | cons entry rest ih =>
        obtain ⟨hentry, hrest⟩ := List.forall_mem_cons.mp h
        rw [List.map_cons, List.mapM_cons, ih hrest]
        simp only [safeEntry, hentry.read]
        rfl
  exact (congrArg (Option.bind · _) hexpanded).trans
    (if_pos (nodup_map_name_attributeOf h hdistinct))

theorem mapM_attributeIn (h : ∀ entry ∈ entries, IsShown scope frames true entry.1) :
    entries.mapM (attributeIn scope) = .ok (entries.map (attributeOf scope)) := by
  rw [mapM_eq_ok_iff, List.forall₂_map_right_iff, List.forall₂_same]
  intro entry hentry
  exact bind_eq_ok_iff.mpr ⟨_, (h entry hentry).found, rfl⟩

end Attributes

end GeoMetadata.Xml
