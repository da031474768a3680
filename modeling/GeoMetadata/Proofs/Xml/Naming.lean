import GeoMetadata.Proofs.Outcome
import GeoMetadata.Proofs.Text.Pieces
import GeoMetadata.Xml.Element

/-!
# Names that can be written

A name stands for an XML name below some declarations if its prefix is declared.  Whether the XML
name can be written is looked at again in its expanded form, with the URI in braces before it.  If
the declared URIs are fit for that (`isNamespace`), the expanded form is read as the URI and the
name part that it was made of (`ofExpanded_expanded`), so that the prefix and the part decide alone
(`isElementName_of_isQualifiedName`, `isAttributeName_of_isQualifiedName`).
-/

namespace GeoMetadata.Xml

open Text

variable {scope : List Declaration}

/-! ## Names below declarations -/

/-- The XML name that a name stands for below some declarations. -/
def nameIn (scope : List Declaration) (isAttribute : Bool) (name : String) :
    Except BuildFault Name :=
  resolve scope isAttribute name >>= Name.ofExpanded

/-- The name can be that of an attribute below some declarations. -/
def isAttributeName (scope : List Declaration) (name : String) : Bool :=
  match nameIn scope true name with
  | .ok found => isNamePart found.part
  | .error _ => false

/-- The name can be that of an element below some declarations. -/
def isElementName (scope : List Declaration) (name : String) : Bool :=
  match nameIn scope false name with
  | .ok found => isNamePart found.part && found.uri.all Uri.isReference
  | .error _ => false

theorem isAttributeName_iff {name : String} :
    isAttributeName scope name = true ↔
      ∃ found, nameIn scope true name = .ok found ∧ isNamePart found.part = true := by
  unfold isAttributeName
  cases nameIn scope true name <;> simp

theorem isElementName_iff {name : String} :
    isElementName scope name = true ↔
      ∃ found, nameIn scope false name = .ok found ∧ isNamePart found.part = true ∧
        found.uri.all Uri.isReference = true := by
  unfold isElementName
  cases nameIn scope false name <;> simp

/-- A prefix of a name that stands for anything is declared. -/
theorem mem_of_nameIn_eq_ok {isAttribute : Bool} {name part declared : String} {found : Name}
    (hok : nameIn scope isAttribute name = .ok found)
    (hsplit : splitQualified name = (some declared, part)) :
    some declared ∈ scope.map Prod.fst := by
  obtain ⟨text, hresolve, -⟩ := bind_eq_ok_iff.mp hok
  simp only [resolve, hsplit] at hresolve
  cases huri : entryValue? (some declared) scope with
  | none => simp [huri] at hresolve
  | some uri => exact List.mem_map_of_mem (mem_of_entryValue?_eq_some huri)

/-! ## Expanded names -/

/-- The URI can stand in braces before a name. -/
def isNamespace (uri : String) : Bool :=
  uri != "" && isText uri && !uri.toList.contains '\x7d' && Uri.isReference uri

/-- The characters of names are characters of texts, range by range. -/
theorem isText_of_isNamePart {part : String} (hpart : isNamePart part = true) :
    isText part = true := by
  have hstart : ∀ c, isNameStart c = true → isCharacter c = true :=
    fun c => inRanges_of_le (by decide)
  have hextra : ∀ c, inRanges nameExtraRanges c = true → isCharacter c = true :=
    fun c => inRanges_of_le (by decide)
  unfold isNamePart at hpart
  split at hpart
  · nomatch hpart
  · rename_i c rest hchars
    rw [Bool.and_eq_true, List.all_eq_true] at hpart
    rw [isText, hchars, List.all_cons, Bool.and_eq_true, List.all_eq_true]
    refine ⟨hstart c hpart.1, fun d hd => ?_⟩
    rcases Bool.or_eq_true_iff.mp (hpart.2 d hd) with hd | hd
    · exact hstart d hd
    · exact hextra d hd

theorem toList_eq_cons_of_isNamePart {part : String} (hpart : isNamePart part = true) :
    ∃ c rest, part.toList = c :: rest ∧ isNameStart c = true := by
  unfold isNamePart at hpart
  split at hpart
  · nomatch hpart
  · rename_i c rest hchars
    exact ⟨c, rest, hchars, (Bool.and_eq_true_iff.mp hpart).1⟩

theorem isText_append {first second : String} (hfirst : isText first = true)
    (hsecond : isText second = true) : isText (first ++ second) = true := by
  rw [isText, String.toList_append, List.all_append, Bool.and_eq_true]
  exact ⟨hfirst, hsecond⟩

theorem ofExpanded_expanded {uri part : String} (huri : isNamespace uri = true)
    (hpart : isNamePart part = true) :
    Name.ofExpanded (Name.expanded ⟨some uri, part⟩) = .ok ⟨some uri, part⟩ := by
  simp only [isNamespace, Bool.and_eq_true, Bool.not_eq_true', List.contains_eq_mem,
    decide_eq_false_iff_not, bne_iff_ne] at huri
  obtain ⟨⟨⟨hnonempty, htext⟩, hfree⟩, -⟩ := huri
  obtain ⟨c, rest, hchars, -⟩ := toList_eq_cons_of_isNamePart hpart
  have hall : isText (Name.expanded ⟨some uri, part⟩) = true :=
    isText_append (isText_append (isText_append (by decide) htext) (by decide))
      (isText_of_isNamePart hpart)
  -- The expanded form is cut at the first closing brace, and the namespace has none.
  have hlist : (Name.expanded ⟨some uri, part⟩).toList =
      '\x7b' :: (uri.toList ++ '\x7d' :: c :: rest) := by
    simp [Name.expanded, hchars]
  have hcut : cutAt '\x7d' (uri.toList ++ '\x7d' :: c :: rest) = (uri.toList, some (c :: rest)) :=
    cutAt_append_cons hfree _
  have hne : uri.toList ≠ [] := fun hnil => hnonempty (String.toList_inj.mp hnil)
  rw [Name.ofExpanded, hall, hlist]
  simp only [Bool.not_true, Bool.false_eq_true, if_false, hcut]
  cases hfirst : uri.toList with
  | nil => exact absurd hfirst hne
  | cons d others => simp [← hfirst, ← hchars]

/-- No name part starts with a brace. -/
theorem ofExpanded_of_isNamePart {part : String} (hpart : isNamePart part = true) :
    Name.ofExpanded part = .ok ⟨none, part⟩ := by
  obtain ⟨c, rest, hchars, hstart⟩ := toList_eq_cons_of_isNamePart hpart
  have hbrace : c ≠ '\x7b' := by
    rintro rfl
    revert hstart
    decide
  rw [Name.ofExpanded, isText_of_isNamePart hpart, hchars]
  simp [hbrace]

/-! ## Qualified names -/

/-- The characters are those of a name part. -/
def spellsNamePart : List Char → Bool
  | [] => false
  | c :: rest => isNameStart c && rest.all isNameCharacter

/-- The name is a name part, or a name part after one of some prefixes and a colon. It is looked at
as a list of characters throughout, so that it can be decided fast. -/
def isQualifiedName (prefixes : List String) (name : String) : Bool :=
  match cutAt ':' name.toList with
  | (_, none) => spellsNamePart name.toList
  | (before, some after) =>
    prefixes.any (fun declared => declared.toList == before) && spellsNamePart after

theorem isNamePart_eq_spellsNamePart (name : String) :
    isNamePart name = spellsNamePart name.toList := by
  unfold isNamePart spellsNamePart
  rfl

theorem splitQualified_of_isQualifiedName {prefixes : List String} {name : String}
    (hname : isQualifiedName prefixes name = true) :
    (splitQualified name = (none, name) ∧ isNamePart name = true) ∨
      ∃ declared ∈ prefixes, ∃ part, splitQualified name = (some declared, part) ∧
        isNamePart part = true := by
  rcases hcut : cutAt ':' name.toList with ⟨before, _ | after⟩
  · left
    rw [isQualifiedName, hcut] at hname
    have hsplit : splitQualified name = (none, name) := by rw [splitQualified, hcut]
    rw [isNamePart_eq_spellsNamePart]
    exact ⟨hsplit, hname⟩
  · right
    rw [isQualifiedName, hcut, Bool.and_eq_true, List.any_eq_true] at hname
    obtain ⟨⟨declared, hmem, hdeclared⟩, hpart⟩ := hname
    have hbefore : String.ofList before = declared := by
      rw [← beq_iff_eq.mp hdeclared, String.ofList_toList]
    have hsplit : splitQualified name = (some declared, String.ofList after) := by
      rw [splitQualified, hcut, ← hbefore]
    refine ⟨declared, hmem, String.ofList after, hsplit, ?_⟩
    rw [isNamePart_eq_spellsNamePart, String.toList_ofList]
    exact hpart

theorem isNameCharacter_of_spellsNamePart {chars : List Char} (h : spellsNamePart chars = true) :
    ∀ c ∈ chars, isNameCharacter c = true := by
  cases chars with
  | nil => simp
  | cons first rest =>
      rw [spellsNamePart, Bool.and_eq_true, List.all_eq_true] at h
      rw [List.forall_mem_cons]
      exact ⟨Bool.or_eq_true_iff.mpr (.inl h.1), h.2⟩

/-- A qualified name is spelled with characters of names, a colon and a prefix. -/
theorem mem_of_isQualifiedName {prefixes : List String} {name : String}
    (h : isQualifiedName prefixes name = true) :
    ∀ c ∈ name.toList, isNameCharacter c = true ∨ c = ':' ∨
      ∃ declared ∈ prefixes, c ∈ declared.toList := by
  intro c hc
  unfold isQualifiedName at h
  split at h
  · exact .inl (isNameCharacter_of_spellsNamePart h c hc)
  · rename_i before after hcut
    rw [Bool.and_eq_true, List.any_eq_true] at h
    obtain ⟨⟨declared, hmem, hdeclared⟩, hafter⟩ := h
    rw [eq_append_of_cutAt_eq_some hcut, List.mem_append, List.mem_cons] at hc
    rcases hc with hc | hc | hc
    · exact .inr (.inr ⟨declared, hmem, (beq_iff_eq.mp hdeclared).symm ▸ hc⟩)
    · exact .inr (.inl hc)
    · exact .inl (isNameCharacter_of_spellsNamePart hafter c hc)

section Declared

variable {prefixes : List String} {name : String}

/-- The declarations are fit for names, and the prefixes are among the declared ones. -/
structure Declares (scope : List Declaration) (prefixes : List String) : Prop where
  namespaces : ∀ declaration ∈ scope, isNamespace declaration.2 = true
  declared : ∀ declared ∈ prefixes, some declared ∈ scope.map Prod.fst

/-- A name with a declared prefix is in the namespace of the prefix. -/
theorem Declares.nameIn_of_split {declared part : String} (h : Declares scope prefixes)
    (isAttribute : Bool) (hmem : declared ∈ prefixes)
    (hsplit : splitQualified name = (some declared, part)) (hpart : isNamePart part = true) :
    ∃ uri, entryValue? (some declared) scope = some uri ∧ isNamespace uri = true ∧
      nameIn scope isAttribute name = .ok ⟨some uri, part⟩ := by
  obtain ⟨uri, hdeclared⟩ := exists_entryValue?_of_mem (h.declared declared hmem)
  have huri : isNamespace uri = true := h.namespaces _ (mem_of_entryValue?_eq_some hdeclared)
  have hresolve : resolve scope isAttribute name = .ok (Name.expanded ⟨some uri, part⟩) := by
    simp [resolve, hsplit, hdeclared]
  refine ⟨uri, hdeclared, huri, ?_⟩
  rw [nameIn, hresolve]
  exact ofExpanded_expanded huri hpart

theorem isReference_of_isNamespace {uri : String} (huri : isNamespace uri = true) :
    Uri.isReference uri = true := (Bool.and_eq_true_iff.mp huri).2

theorem ne_empty_of_isNamespace {uri : String} (huri : isNamespace uri = true) : uri ≠ "" := by
  rintro rfl
  revert huri
  decide

/-- The namespace of a name without prefix: the default one, if there is one, for an element, and
none for an attribute. -/
def plainUri? (scope : List Declaration) (isAttribute : Bool) : Option String :=
  if isAttribute then none else entryValue? none scope

theorem Declares.isNamespace_of_plainUri? {isAttribute : Bool} {uri : String}
    (h : Declares scope prefixes) (huri : plainUri? scope isAttribute = some uri) :
    (none, uri) ∈ scope ∧ isNamespace uri = true := by
  cases isAttribute with
  | true => nomatch huri
  | false =>
      have hmem : (none, uri) ∈ scope := mem_of_entryValue?_eq_some huri
      exact ⟨hmem, h.namespaces _ hmem⟩

theorem Declares.nameIn_of_part (h : Declares scope prefixes) (isAttribute : Bool)
    (hsplit : splitQualified name = (none, name)) (hpart : isNamePart name = true) :
    nameIn scope isAttribute name = .ok ⟨plainUri? scope isAttribute, name⟩ := by
  have hnone (hresolve : resolve scope isAttribute name = .ok name) :
      nameIn scope isAttribute name = .ok ⟨none, name⟩ := by
    rw [nameIn, hresolve]
    exact ofExpanded_of_isNamePart hpart
  cases hplain : plainUri? scope isAttribute with
  | none =>
      refine hnone ?_
      cases isAttribute with
      | true => simp [resolve, hsplit]
      | false =>
          have hdefault : entryValue? none scope = none := hplain
          simp [resolve, hsplit, hdefault]
  | some uri =>
      obtain ⟨-, huri⟩ := h.isNamespace_of_plainUri? hplain
      have hresolve : resolve scope isAttribute name = .ok (Name.expanded ⟨some uri, name⟩) := by
        cases isAttribute with
        | true => cases hplain
        | false =>
            have hdefault : entryValue? none scope = some uri := hplain
            simp [resolve, hsplit, hdefault, ne_empty_of_isNamespace huri]
      rw [nameIn, hresolve]
      exact ofExpanded_expanded huri hpart

/-- A name whose prefix is declared can be written. -/
theorem exists_nameIn_of_isQualifiedName (h : Declares scope prefixes) (isAttribute : Bool)
    (hname : isQualifiedName prefixes name = true) :
    ∃ found, nameIn scope isAttribute name = .ok found ∧ isNamePart found.part = true ∧
      found.uri.all Uri.isReference = true := by
  rcases splitQualified_of_isQualifiedName hname with
    ⟨hsplit, hpart⟩ | ⟨declared, hmem, part, hsplit, hpart⟩
  · refine ⟨_, h.nameIn_of_part isAttribute hsplit hpart, hpart, ?_⟩
    cases hplain : plainUri? scope isAttribute with
    | none => rfl
    | some uri => exact isReference_of_isNamespace (h.isNamespace_of_plainUri? hplain).2
  · obtain ⟨uri, -, huri, hok⟩ := h.nameIn_of_split isAttribute hmem hsplit hpart
    exact ⟨⟨some uri, part⟩, hok, hpart, isReference_of_isNamespace huri⟩

theorem isElementName_of_isQualifiedName (h : Declares scope prefixes)
    (hname : isQualifiedName prefixes name = true) : isElementName scope name = true :=
  isElementName_iff.mpr (exists_nameIn_of_isQualifiedName h false hname)

theorem isAttributeName_of_isQualifiedName (h : Declares scope prefixes)
    (hname : isQualifiedName prefixes name = true) : isAttributeName scope name = true := by
  obtain ⟨found, hok, hpart, -⟩ := exists_nameIn_of_isQualifiedName h true hname
  exact isAttributeName_iff.mpr ⟨found, hok, hpart⟩

end Declared

end GeoMetadata.Xml
