import GeoMetadata.Proofs.Profile.Blocks

/-!
# The security attributes are confined

Two conversions are compared whose records differ in attributes on security.  Section by section,
they may differ in what is written below the places of the security blocks, but neither in the
other writes nor in the numbers that later sections go on from (`Section.Confines`):

* a section that does not read the attributes gives the same (`confines_of_readsOnly`);
* of a section with a security block, only the block depends on the record
  (`confines_of_givesBlock`).

Run one after the other, the sections assign the same elsewhere (`outside_eq_of_confines`).  Both
conversions have to succeed for that: a releasability that has no text may end one and not the
other.
-/

namespace GeoMetadata

/-- The records have the same values of all attributes but some, and are of the same catalog
source. -/
structure Record.AgreeExcept (names : List String) (first second : Record) : Prop where
  get? : ∀ name ∉ names, first.attributes.get? name = second.attributes.get? name
  sourceId : first.sourceId = second.sourceId

/-- The record with some values of an attribute. -/
def Record.set (record : Record) (name : String) (values : List Value) : Record :=
  { record with attributes := record.attributes.insert name values }

theorem Record.agreeExcept_set {record : Record} {names : List String} {name : String}
    {values : List Value} (hname : name ∈ names) :
    record.AgreeExcept names (record.set name values) where
  get? other hother := by
    have hne : name ≠ other := fun heq => hother (heq ▸ hname)
    rw [Record.set, OrderedMap.get?_insert, if_neg hne]
  sourceId := rfl

namespace Profile

open GeoMetadata.Path (Template)

/-! ## Writes elsewhere -/

/-- The writes to paths that are below none of some places. -/
def writesOutside (places : List String) (writes : List Write) : List Write :=
  writes.filter fun write => places.all fun place =>
    (Path.restBelow? place (write.template.at write.index)).isNone

theorem writesOutside_append (places : List String) (before after : List Write) :
    writesOutside places (before ++ after) =
      writesOutside places before ++ writesOutside places after := List.filter_append _ _

theorem Composed.outside_eq {source : Source} {tracker : Assignments} {writes : List Write}
    (h : Composed source tracker writes) (places : List String) :
    tracker.outside places = (writesOutside places writes).map fun write =>
      (write.template.at write.index, write.value) := by
  rw [Assignments.outside, h.entries, List.filter_map]
  rfl

/-- A block stands below the element that it is in. -/
theorem writesOutside_block {places : List String} {base : Template} {parts : List Write}
    (hplace : base.at 1 ∈ places) (hparts : ∀ write ∈ parts, write.IsPart) :
    writesOutside places (parts.map (Write.under (blockAt base))) = [] := by
  rw [writesOutside, List.filter_eq_nil_iff, List.forall_mem_map]
  intro write hwrite hall
  obtain ⟨-, hindex⟩ := hparts write hwrite
  have hbelow : Path.restBelow? (base.at 1) ((write.under (blockAt base)).template.at 1) =
      some (Template.at (.single "mgmp:MGMP_SecurityConstraints" :: write.template) 1) := by
    rw [Write.under, blockAt, Layout.down, List.append_assoc]
    exact Path.restBelow?_at_append (List.cons_ne_nil _ _) 1
  have hnone := List.all_eq_true.mp hall _ hplace
  rw [Write.under, hindex] at hnone
  rw [Write.under] at hbelow
  rw [hbelow] at hnone
  cases hnone

/-! ## Sections -/

section Sections

variable {names others places : List String} {part : Section}

/-- If records agree except for some attributes, then what the section gives of them differs at most
below some places. -/
def Section.Confines (names places : List String) (part : Section) : Prop :=
  ∀ source record progress own other, source.record.AgreeExcept names record →
    part.contribute source progress = .ok own →
    part.contribute { source with record := record } progress = .ok other →
    own.progress = other.progress ∧
      writesOutside places own.writes = writesOutside places other.writes

theorem agreeOn_of_agreeExcept {source : Source} {record : Record}
    (h : source.record.AgreeExcept names record) (hdisjoint : ∀ name ∈ others, name ∉ names) :
    source.AgreeOn others { source with record := record } where
  record := .of_get? h.sourceId fun name hname => h.get? name (hdisjoint name hname)
  defaultLanguage := rfl
  gmlSrsName := rfl
  codeOf? _ := rfl
  systemName := rfl
  now := rfl
  gmlId := rfl

theorem confines_of_readsOnly (hpart : part.ReadsOnly others)
    (hdisjoint : ∀ name ∈ others, name ∉ names) : part.Confines names places := by
  intro source record progress own other hagree hown hother
  rw [hpart _ _ (agreeOn_of_agreeExcept hagree hdisjoint), hother] at hown
  obtain rfl := Except.ok.inj hown
  exact ⟨rfl, rfl⟩

/-- This holds of all attributes, since the rest of the section is fixed. -/
theorem confines_of_givesBlock {base : Template} {protection : Attribute.Protection}
    {fixed : List Write} (hpart : part.GivesBlock base protection fixed)
    (hplace : base.at 1 ∈ places) : part.Confines names places := by
  have hfixed (source : Source) (progress : Progress) (own : Contribution)
      (hown : part.contribute source progress = .ok own) :
      own.progress = progress ∧ writesOutside places own.writes = writesOutside places fixed := by
    obtain ⟨security, hsecurity, rfl⟩ := hpart _ _ _ hown
    rw [securityWrites_securityAt] at hsecurity
    obtain ⟨parts, hparts, rfl⟩ := map_eq_ok_iff.mp hsecurity
    refine ⟨rfl, ?_⟩
    rw [writesOutside_append, writesOutside_block hplace (isPart_of_mem hparts), List.nil_append]
  intro source record progress own other hagree hown hother
  obtain ⟨hprogress, hwrites⟩ := hfixed _ _ _ hown
  obtain ⟨hprogress', hwrites'⟩ := hfixed _ _ _ hother
  exact ⟨hprogress.trans hprogress'.symm, hwrites.trans hwrites'.symm⟩

/-- A block has to be among the places, unless its attributes are the same. -/
theorem confines_of_mem (hopen : ∀ name ∈ openAttributes, name ∉ names)
    (hresource : (∀ name ∈ securityAttributes Attribute.resourceProtection, name ∉ names) ∨
      Layout.resourceConstraints.at 1 ∈ places)
    (hmetadata : (∀ name ∈ securityAttributes Attribute.metadataProtection, name ∉ names) ∨
      Layout.metadataConstraints.at 1 ∈ places) :
    ∀ part ∈ sections, part.Confines names places := by
  intro part hpart
  -- Either the attributes of a block are the same, or its place is left out of the comparison.
  rcases isSecurity_or_readsOnly part hpart with hsecurity | hreads
  · simp only [List.mem_cons, List.not_mem_nil, or_false] at hsecurity
    rcases hsecurity with rfl | rfl
    · exact hresource.elim (confines_of_readsOnly readsOnly_resourceSection)
        (confines_of_givesBlock resourceSection_givesBlock)
    · exact hmetadata.elim (confines_of_readsOnly readsOnly_metadataSection)
        (confines_of_givesBlock metadataSection_givesBlock)
  · exact confines_of_readsOnly hreads hopen

end Sections

/-! ## Conversions -/

section Conversions

variable {names places : List String} {source : Source} {record : Record}

/-- The sections go on from the same numbers, one after the other. -/
theorem writesOutside_allWrites_eq {parts : List Section} {progress : Progress}
    {given others : List Contribution} (hparts : ∀ part ∈ parts, part.Confines names places)
    (hagree : source.record.AgreeExcept names record)
    (hgiven : contributionsFrom source parts progress = .ok given)
    (hothers : contributionsFrom { source with record := record } parts progress = .ok others) :
    writesOutside places (allWrites given) = writesOutside places (allWrites others) := by
  -- By the sections: both runs come to each of them with the same numbers.
  induction parts generalizing progress given others with
  | nil =>
      obtain rfl := Except.ok.inj hgiven
      obtain rfl := Except.ok.inj hothers
      rfl
  | cons part rest ih =>
      obtain ⟨hpart, hrest⟩ := List.forall_mem_cons.mp hparts
      obtain ⟨own, hown, hgiven⟩ := bind_eq_ok_iff.mp hgiven
      obtain ⟨later, hlater, hgiven⟩ := bind_eq_ok_iff.mp hgiven
      obtain rfl := Except.ok.inj hgiven
      obtain ⟨other, hother, hothers⟩ := bind_eq_ok_iff.mp hothers
      obtain ⟨later', hlater', hothers⟩ := bind_eq_ok_iff.mp hothers
      obtain rfl := Except.ok.inj hothers
      obtain ⟨hprogress, hwrites⟩ := hpart _ _ _ _ _ hagree hown hother
      rw [← hprogress] at hlater'
      rw [allWrites_cons, allWrites_cons, writesOutside_append, writesOutside_append, hwrites,
        ih hrest hlater hlater']

variable {first second : Assignments}

theorem outside_eq_of_confines (hsections : ∀ part ∈ sections, part.Confines names places)
    (hagree : source.record.AgreeExcept names record) (hfirst : assignments source = .ok first)
    (hsecond : assignments { source with record := record } = .ok second) :
    first.outside places = second.outside places := by
  obtain ⟨given, entries, hgiven, hentries, rfl⟩ := assignments_eq_ok_iff.mp hfirst
  obtain ⟨others, entries', hothers, hentries', rfl⟩ := assignments_eq_ok_iff.mp hsecond
  rw [(composed_allWrites hgiven hentries).outside_eq,
    (composed_allWrites hothers hentries').outside_eq,
    writesOutside_allWrites_eq hsections hagree hgiven hothers]

/-- The attributes on the security of the resource change nothing but what is assigned below the
first of its constraints, those on the security of the metadata nothing but what is assigned below
its constraints, and the overall classification nothing but both. -/
theorem security_confined (hfirst : assignments source = .ok first)
    (hsecond : assignments { source with record := record } = .ok second) :
    (source.record.AgreeExcept (levelPairs.map Prod.fst) record →
      first.outside [resourcePlace] = second.outside [resourcePlace]) ∧
    (source.record.AgreeExcept (levelPairs.map Prod.snd) record →
      first.outside [metadataPlace] = second.outside [metadataPlace]) ∧
    (source.record.AgreeExcept ["security.classification"] record →
      first.outside [resourcePlace, metadataPlace] =
        second.outside [resourcePlace, metadataPlace]) := by
  have hresource : resourcePlace = Layout.resourceConstraints.at 1 := by decide
  have hmetadata : metadataPlace = Layout.metadataConstraints.at 1 := by decide
  refine ⟨fun hagree => ?_, fun hagree => ?_, fun hagree => ?_⟩
  · exact outside_eq_of_confines (confines_of_mem (by decide) (.inr (by simp [hresource]))
      (.inl (by decide))) hagree hfirst hsecond
  · exact outside_eq_of_confines (confines_of_mem (by decide) (.inl (by decide))
      (.inr (by simp [hmetadata]))) hagree hfirst hsecond
  · exact outside_eq_of_confines (confines_of_mem (by decide) (.inr (by simp [hresource]))
      (.inr (by simp [hmetadata]))) hagree hfirst hsecond

end Conversions

/-- The source whose record has some values of an attribute. -/
def Source.setting (source : Source) (name : String) (values : List Value) : Source :=
  { source with record := source.record.set name values }

theorem sample_security_confined :
    ∃ first second third fourth, assignments sampleSource = .ok first ∧
      assignments (sampleSource.setting "ext.security.resource-originator-classification"
        [.text "secret"]) = .ok second ∧
      assignments (sampleSource.setting "ext.security.metadata-originator-classification"
        [.text "secret"]) = .ok third ∧
      assignments (sampleSource.setting "security.classification" [.text "secret"]) = .ok fourth ∧
      first.outside [resourcePlace] = second.outside [resourcePlace] ∧
      first.outside [metadataPlace] = third.outside [metadataPlace] ∧
      first.outside [resourcePlace, metadataPlace] =
        fourth.outside [resourcePlace, metadataPlace] := by
  obtain ⟨first, hfirst⟩ := succeeds_assignments_sampleSource
  obtain ⟨second, hsecond⟩ : Succeeds (assignments (sampleSource.setting
      "ext.security.resource-originator-classification" [.text "secret"])) :=
    succeeds_of_faultOf? (by decide +kernel)
  obtain ⟨third, hthird⟩ : Succeeds (assignments (sampleSource.setting
      "ext.security.metadata-originator-classification" [.text "secret"])) :=
    succeeds_of_faultOf? (by decide +kernel)
  obtain ⟨fourth, hfourth⟩ : Succeeds (assignments (sampleSource.setting
      "security.classification" [.text "secret"])) :=
    succeeds_of_faultOf? (by decide +kernel)
  exact ⟨first, second, third, fourth, hfirst, hsecond, hthird, hfourth,
    (security_confined hfirst hsecond).1 (Record.agreeExcept_set (by decide)),
    (security_confined hfirst hthird).2.1 (Record.agreeExcept_set (by decide)),
    (security_confined hfirst hfourth).2.2 (Record.agreeExcept_set (by decide))⟩

end Profile

end GeoMetadata
