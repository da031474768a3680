import GeoMetadata.Proofs.Path.Below
import GeoMetadata.Proofs.Profile.Arrangement
import GeoMetadata.Proofs.Profile.Dependence
import GeoMetadata.Proofs.Profile.Document
import GeoMetadata.Proofs.Profile.SiblingIndices

/-!
# The security blocks

A document has a security block for the resource and one for the metadata.  Both have the same
parts (`blockParts`), and what a block writes is what its parts write, put below the element of the
block (`securityWrites_securityAt`).  No other section writes there.  So what is assigned below the
element is what its parts write, in order (`below_resourceBlock`, `below_metadataBlock`).

What is below an element is a matter of paths here, as texts: the rest of a path after that of the
element (`Assignments.below`).  The parts are found by taking the path of the element off theirs,
and that nothing else is found is seen by the names in the templates (`Composed.below_blockAt`).

The parts are resolved from four attributes for each level, and from the overall classification:

```text
ext.security.resource-classification               ext.security.metadata-classification
ext.security.resource-originator-classification    ext.security.metadata-originator-classification
ext.security.resource-dissemination-controls       ext.security.metadata-dissemination-controls
ext.security.resource-releasability                ext.security.metadata-releasability
```

If the two columns are exchanged in a record, the one block is resolved as the other was
(`securityWrites_of_exchanges`).
-/

namespace GeoMetadata

/-- What is assigned below a place, in order: how the paths go on from there, and the values. -/
def Assignments.below (m : Assignments) (place : String) : List (String × String) :=
  m.entries.filterMap fun entry =>
    (Path.restBelow? place entry.1).map fun rest => (rest, entry.2)

/-- What is assigned below none of some places, in order. -/
def Assignments.outside (m : Assignments) (places : List String) : List (String × String) :=
  m.entries.filter fun entry => places.all fun place => (Path.restBelow? place entry.1).isNone

/-! ## Exchanging the levels

A name is exchanged by a table, and doing so twice gives it back.  So the exchange may be read in
either direction, and it can be carried out on every record (`Record.exchanged`). -/

/-- The attributes on the security of the resource, each with the one on that of the metadata. -/
def levelPairs : List (String × String) :=
  [("ext.security.resource-classification", "ext.security.metadata-classification"),
    ("ext.security.resource-originator-classification",
      "ext.security.metadata-originator-classification"),
    ("ext.security.resource-dissemination-controls",
      "ext.security.metadata-dissemination-controls"),
    ("ext.security.resource-releasability", "ext.security.metadata-releasability")]

/-- The attribute on the other level that corresponds to an attribute on one; the others correspond
to themselves. -/
def counterpart (name : String) : String :=
  (entryValue? name (levelPairs ++ levelPairs.map Prod.swap)).getD name

/-- The attributes that blocks on both levels are made from. -/
def blockAttributes : List String :=
  "security.classification" :: (levelPairs.map Prod.fst ++ levelPairs.map Prod.snd)

theorem counterpart_counterpart (name : String) : counterpart (counterpart name) = name := by
  have hback : ∀ key ∈ (levelPairs ++ levelPairs.map Prod.swap).map Prod.fst,
      counterpart (counterpart key) = key := by decide
  by_cases hname : name ∈ (levelPairs ++ levelPairs.map Prod.swap).map Prod.fst
  · exact hback name hname
  · have hself : counterpart name = name := by
      rw [counterpart, Option.eq_none_iff_forall_ne_some.mpr fun value hvalue =>
        hname (List.mem_map_of_mem (mem_of_entryValue?_eq_some hvalue)), Option.getD_none]
    rw [hself, hself]

/-- Each attribute of a block has in the one record the values that its counterpart has in the
other, and is missing if that is. -/
def Record.Exchanges (record other : Record) : Prop :=
  ∀ name ∈ blockAttributes, other.attributes.get? name = record.attributes.get? (counterpart name)

theorem Record.Exchanges.symm {record other : Record}
    (h : record.Exchanges other) : other.Exchanges record := by
  have hclosed : ∀ name ∈ blockAttributes, counterpart name ∈ blockAttributes := by decide
  intro name hname
  rw [h _ (hclosed name hname), counterpart_counterpart]

/-- The record with the values of the attributes and their counterparts exchanged. -/
def Record.exchanged (record : Record) : Record where
  attributes :=
    { entries := record.attributes.entries.map fun entry => (counterpart entry.1, entry.2)
      nodup := by
        have hinjective : Function.Injective counterpart :=
          Function.LeftInverse.injective counterpart_counterpart
        have hnodup := List.pairwise_map.mp record.attributes.nodup
        rw [List.map_map]
        exact List.pairwise_map.mpr (hnodup.imp fun hne h => hne (hinjective h)) }
  sourceId := record.sourceId

theorem entryValue?_map_counterpart (name : String) (entries : List (String × List Value)) :
    entryValue? name (entries.map fun entry => (counterpart entry.1, entry.2)) =
      entryValue? (counterpart name) entries := by
  induction entries with
  | nil => rfl
  | cons entry rest ih =>
      have hkey : counterpart entry.1 = name ↔ entry.1 = counterpart name := by
        constructor
        · rintro rfl
          exact (counterpart_counterpart entry.1).symm
        · intro h
          rw [h, counterpart_counterpart]
      simp only [List.map_cons, entryValue?, hkey, ih]

theorem Record.exchanges_exchanged (record : Record) : record.Exchanges record.exchanged :=
  fun name _ => entryValue?_map_counterpart name record.attributes.entries

namespace Profile

open GeoMetadata.Path (Template)

/-! ## The parts of a block -/

/-- The element of the security block below an element. -/
def blockAt (base : Template) : Template := Layout.down base ["mgmp:MGMP_SecurityConstraints"]

/-- The places of the parts of a security block below its element. -/
def blockParts : Layout.SecurityPlaces where
  classification := Layout.codeAt [.single "classification", .single "MD_ClassificationCode"]
  originatorClassification :=
    Layout.codeAt [.single "mgmp:originatorClassification", .single "MD_ClassificationCode"]
  caveat := Layout.text [.single "mgmp:caveat"]

/-- The write at the same place below an element. -/
def Write.under (base : Template) (write : Write) : Write :=
  { write with template := base ++ write.template }

theorem securityWrites_securityAt (base : Template) (protection : Attribute.Protection)
    (source : Source) :
    securityWrites (Layout.securityAt base) protection source =
      (securityWrites blockParts protection source).map (List.map (Write.under (blockAt base))) := by
  rw [securityWrites, securityWrites]
  cases caveat? (source.record.value? protection.dissemination)
      (source.record.values protection.releasability) with
  | error fault => rfl
  | ok caveat =>
      have hcode (code : Option ClassificationCode) (places : Layout.CodePlaces) :
          code.elim [] (codeWrites
            ⟨blockAt base ++ places.codeList, blockAt base ++ places.codeListValue,
              blockAt base ++ places.text⟩ 1) =
            (code.elim [] (codeWrites places 1)).map (Write.under (blockAt base)) := by
        cases code <;> rfl
      have hcaveat (place : Template) : optional (blockAt base ++ place) caveat =
          (optional place caveat).map (Write.under (blockAt base)) := by
        cases caveat <;> rfl
      have hplaces : Layout.securityAt base =
          ⟨⟨blockAt base ++ blockParts.classification.codeList,
              blockAt base ++ blockParts.classification.codeListValue,
              blockAt base ++ blockParts.classification.text⟩,
            ⟨blockAt base ++ blockParts.originatorClassification.codeList,
              blockAt base ++ blockParts.originatorClassification.codeListValue,
              blockAt base ++ blockParts.originatorClassification.text⟩,
            blockAt base ++ blockParts.caveat⟩ := by
        simp [Layout.securityAt, blockAt, blockParts, Layout.codeAt, Layout.text, Layout.attr,
          Layout.down]
      simp only [hplaces, bind, Except.bind, Except.map, hcode, hcaveat, List.map_append]

theorem template_mem_of_mem_securityWrites {places : Layout.SecurityPlaces}
    {protection : Attribute.Protection} {source : Source} {writes : List Write}
    (hok : securityWrites places protection source = .ok writes) :
    ∀ write ∈ writes, write.template ∈ securityTemplates places := by
  obtain ⟨caveat, -, hok⟩ := bind_eq_ok_iff.mp hok
  obtain rfl := Except.ok.inj hok
  have hcode (code : Option ClassificationCode) (places : Layout.CodePlaces) :
      ∀ write ∈ code.elim [] (codeWrites places 1), write.template ∈ codeTemplates places := by
    cases code <;> simp [codeWrites, codeTemplates]
  have hcaveat : ∀ write ∈ optional places.caveat caveat, write.template ∈ [places.caveat] := by
    cases caveat <;> simp [optional, Write.only]
  intro write hwrite
  rw [List.mem_append, List.mem_append] at hwrite
  rw [securityTemplates, List.mem_append, List.mem_append]
  exact hwrite.imp (Or.imp (hcode _ _ write) (hcode _ _ write)) (hcaveat write)

/-- A write that stands below the element of its block, at the first place. -/
def Write.IsPart (write : Write) : Prop := write.template ≠ [] ∧ write.index = 1

theorem isPart_of_mem {protection : Attribute.Protection} {source : Source} {parts : List Write}
    (hok : securityWrites blockParts protection source = .ok parts) :
    ∀ write ∈ parts, write.IsPart := by
  have hbelow : ∀ template ∈ securityTemplates blockParts, template ≠ [] := by decide
  exact fun write hwrite => ⟨hbelow _ (template_mem_of_mem_securityWrites hok write hwrite),
    index_eq_one_of_mem_securityWrites hok write hwrite⟩

/-! ## What stands in a block -/

/-- What the parts of a block assign below its element. -/
def partEntries (parts : List Write) : List (String × String) :=
  parts.map fun write => (write.template.at 1, write.value)

theorem Composed.below_eq {source : Source} {tracker : Assignments} {writes : List Write}
    (h : Composed source tracker writes) (place : String) :
    tracker.below place = writes.filterMap fun write =>
      (Path.restBelow? place (write.template.at write.index)).map fun rest =>
        (rest, write.value) := by
  rw [Assignments.below, h.entries, List.filterMap_map]
  rfl

/-- If the other writes go through other names, then only the parts stand in a block. -/
theorem Composed.below_blockAt {source : Source} {tracker : Assignments} {base : Template}
    {before parts after : List Write}
    (h : Composed source tracker (before ++ (parts.map (Write.under (blockAt base)) ++ after)))
    (hblock : (blockAt base).IsProper) (hparts : ∀ write ∈ parts, write.IsPart)
    (hothers : ∀ write ∈ before ++ after, ¬ (blockAt base).map Path.TemplateSegment.name <+:
      write.template.map Path.TemplateSegment.name) :
    tracker.below ((blockAt base).at 1) = partEntries parts := by
  have hone : 0 < 1 ∧ 1 < Number.unwritableMagnitude := ⟨Nat.one_pos, Number.one_lt_unwritableMagnitude⟩
  -- Paths are texts, and that one does not go on from another is seen by the names in them.
  have hnone : ∀ write ∈ before ++ after,
      (Path.restBelow? ((blockAt base).at 1) (write.template.at write.index)).map
        (fun rest => (rest, write.value)) = none := by
    intro write hwrite
    have hmem : write ∈ before ++ (parts.map (Write.under (blockAt base)) ++ after) := by
      rw [List.mem_append] at hwrite ⊢
      exact hwrite.imp_right (List.mem_append_right _)
    have helsewhere := Path.restBelow?_eq_none_of_names hblock
      (isProper_of_mem (h.arranged.mem write hmem)).1 hone
      ⟨h.arranged.positive write hmem, h.writable write hmem⟩ (hothers write hwrite)
    rw [helsewhere, Option.map_none]
  have hsome : ∀ write ∈ parts,
      (Path.restBelow? ((blockAt base).at 1)
        ((write.under (blockAt base)).template.at (write.under (blockAt base)).index)).map
        (fun rest => (rest, (write.under (blockAt base)).value)) =
      some (write.template.at 1, write.value) := by
    intro write hwrite
    obtain ⟨hbelow, hindex⟩ := hparts write hwrite
    rw [Write.under, hindex, Path.restBelow?_at_append hbelow, Option.map_some]
  rw [List.forall_mem_append] at hnone
  rw [h.below_eq, List.filterMap_append, List.filterMap_append, List.filterMap_map,
    List.filterMap_eq_nil_iff.mpr hnone.1, List.filterMap_eq_nil_iff.mpr hnone.2,
    List.nil_append, List.append_nil, partEntries, ← List.filterMap_eq_map]
  exact List.filterMap_congr hsome

/-- The section gives the block of a protection at the place, and then some fixed writes. -/
def Section.GivesBlock (part : Section) (base : Template) (protection : Attribute.Protection)
    (fixed : List Write) : Prop :=
  ∀ source progress own, part.contribute source progress = .ok own →
    ∃ security, securityWrites (Layout.securityAt base) protection source = .ok security ∧
      own = ⟨security ++ fixed, progress, []⟩

theorem resourceSection_givesBlock :
    resourceSection.GivesBlock Layout.resourceConstraints Attribute.resourceProtection
      [⟨Layout.useLimitation, 2, useLimitation⟩, ⟨Layout.otherConstraints, 3, otherConstraints⟩] := by
  intro source progress own hok
  obtain ⟨writes, hwrites, rfl⟩ := map_eq_ok_iff.mp hok
  obtain ⟨security, hsecurity, hwrites⟩ := bind_eq_ok_iff.mp hwrites
  obtain rfl := Except.ok.inj hwrites
  exact ⟨security, hsecurity, rfl⟩

theorem metadataSection_givesBlock :
    metadataSection.GivesBlock Layout.metadataConstraints Attribute.metadataProtection [] := by
  intro source progress own hok
  obtain ⟨security, hsecurity, rfl⟩ := map_eq_ok_iff.mp hok
  exact ⟨security, hsecurity, by rw [List.append_nil]⟩

/-- If no other template goes through the element of a block, then its parts are all that stands
below. -/
theorem below_of_givesBlock {source : Source} {tracker : Assignments} {part : Section} {n : Nat}
    {base : Template} {protection : Attribute.Protection} {fixed : List Write}
    (hsection : sections[n]? = some part) (hpart : part.GivesBlock base protection fixed)
    (hblock : (blockAt base).IsProper)
    (hothers : ∀ template ∈ (sectionTemplates.take n).flatten
        ++ (fixed.map Write.template ++ (sectionTemplates.drop (n + 1)).flatten),
      ¬ (blockAt base).map Path.TemplateSegment.name <+: template.map Path.TemplateSegment.name)
    (hok : assignments source = .ok tracker) :
    ∃ parts, securityWrites blockParts protection source = .ok parts ∧
      tracker.below ((blockAt base).at 1) = partEntries parts := by
  obtain ⟨given, hgiven, hcomposed⟩ := exists_composed hok
  obtain ⟨before, own, after, progress, hown, hall, hbefore, hafter⟩ :=
    exists_allWrites_split hsection hgiven
  obtain ⟨security, hsecurity, rfl⟩ := hpart _ _ _ hown
  rw [securityWrites_securityAt] at hsecurity
  obtain ⟨parts, hparts, rfl⟩ := map_eq_ok_iff.mp hsecurity
  rw [hall, List.append_assoc] at hcomposed
  refine ⟨parts, hparts, hcomposed.below_blockAt hblock (isPart_of_mem hparts) ?_⟩
  simp only [List.forall_mem_append, List.forall_mem_map] at hothers ⊢
  exact ⟨fun write hwrite => hothers.1 _ (hbefore write hwrite), hothers.2.1,
    fun write hwrite => hothers.2.2 _ (hafter write hwrite)⟩

/-- The first of the constraints of the resource. -/
def resourcePlace : String :=
  "/MD_Metadata/identificationInfo/MD_DataIdentification/resourceConstraints[1]"

/-- The constraints of the metadata. -/
def metadataPlace : String := "/MD_Metadata/metadataConstraints"

/-- The element of the security block of the resource. -/
def resourceBlock : String := resourcePlace ++ "/mgmp:MGMP_SecurityConstraints"

/-- The element of the security block of the metadata. -/
def metadataBlock : String := metadataPlace ++ "/mgmp:MGMP_SecurityConstraints"

theorem resourceBlock_eq : resourceBlock = (blockAt Layout.resourceConstraints).at 1 := by decide

theorem metadataBlock_eq : metadataBlock = (blockAt Layout.metadataConstraints).at 1 := by decide

section Levels

variable {source : Source} {tracker : Assignments}

theorem isProper_blockAt :
    ∀ base ∈ [Layout.resourceConstraints, Layout.metadataConstraints],
      (blockAt base).IsProper := by
  have hproper : ∀ base ∈ [Layout.resourceConstraints, Layout.metadataConstraints],
      (blockAt base).isShaped = true ∧
        ∀ segment ∈ blockAt base, Path.isPlainName segment.name = true := by
    decide +kernel
  exact fun base hbase => ⟨(hproper base hbase).1, (hproper base hbase).2⟩

theorem below_resourceBlock (hok : assignments source = .ok tracker) :
    ∃ parts, securityWrites blockParts Attribute.resourceProtection source = .ok parts ∧
      tracker.below resourceBlock = partEntries parts := by
  have hsection : sections[14]? = some resourceSection := rfl
  rw [resourceBlock_eq]
  exact below_of_givesBlock hsection resourceSection_givesBlock (isProper_blockAt _ (by simp))
    (by decide +kernel) hok

theorem below_metadataBlock (hok : assignments source = .ok tracker) :
    ∃ parts, securityWrites blockParts Attribute.metadataProtection source = .ok parts ∧
      tracker.below metadataBlock = partEntries parts := by
  have hsection : sections[24]? = some metadataSection := rfl
  rw [metadataBlock_eq]
  exact below_of_givesBlock hsection metadataSection_givesBlock (isProper_blockAt _ (by simp))
    (by decide +kernel) hok

end Levels

/-! ## Blocks of exchanged levels -/

section Exchanged

variable {first second : Source} {tracker other : Assignments}

/-- The parts of a block are resolved in the same way on both levels. -/
theorem securityWrites_of_exchanges (hrecords : first.record.Exchanges second.record)
    (hmapping : first.mapping = second.mapping) (places : Layout.SecurityPlaces) :
    securityWrites places Attribute.metadataProtection first =
      securityWrites places Attribute.resourceProtection second := by
  have hvalues (name : String) (hname : name ∈ blockAttributes) :
      first.record.values (counterpart name) = second.record.values name := by
    rw [Record.values, Record.values, hrecords name hname]
  have hvalue (name : String) (hname : name ∈ blockAttributes) :
      first.record.value? (counterpart name) = second.record.value? name := by
    rw [Record.value?, Record.value?, hvalues name hname]
  have hstring (name : String) (hname : name ∈ blockAttributes) :
      first.record.string? (counterpart name) = second.record.string? name := by
    rw [Record.string?, Record.string?, hvalue name hname]
  -- The overall classification is its own counterpart.
  exact securityWrites_congr (fun _ => by rw [hmapping])
    (hstring Attribute.classification (by decide))
    (hstring Attribute.resourceProtection.classification (by decide))
    (hstring Attribute.resourceProtection.originatorClassification (by decide))
    (hvalue Attribute.resourceProtection.dissemination (by decide))
    (hvalues Attribute.resourceProtection.releasability (by decide)) places

theorem metadataBlock_eq_resourceBlock (hrecords : first.record.Exchanges second.record)
    (hmapping : first.mapping = second.mapping) (hfirst : assignments first = .ok tracker)
    (hsecond : assignments second = .ok other) :
    tracker.below metadataBlock = other.below resourceBlock := by
  obtain ⟨parts, hparts, hbelow⟩ := below_metadataBlock hfirst
  obtain ⟨others, hothers, hbelow'⟩ := below_resourceBlock hsecond
  rw [securityWrites_of_exchanges hrecords hmapping, hothers] at hparts
  rw [hbelow, hbelow', Except.ok.inj hparts]

/-- The security of the resource and that of the metadata are resolved alike: if their attributes
are exchanged, then what stands in the one block stands in the other, path by path and value by
value, in order. -/
theorem blocks_exchanged (hrecords : first.record.Exchanges second.record)
    (hmapping : first.mapping = second.mapping) (hfirst : assignments first = .ok tracker)
    (hsecond : assignments second = .ok other) :
    tracker.below metadataBlock = other.below resourceBlock ∧
      tracker.below resourceBlock = other.below metadataBlock :=
  ⟨metadataBlock_eq_resourceBlock hrecords hmapping hfirst hsecond,
    (metadataBlock_eq_resourceBlock hrecords.symm hmapping.symm hsecond hfirst).symm⟩

end Exchanged

/-- A record whose resource is classified and whose metadata has a caveat. -/
def levelledSource : Source :=
  { sourceOf
      [("ext.security.resource-classification", [.text "S"]),
        ("ext.security.metadata-dissemination-controls", [.text "EYES ONLY"]),
        ("ext.security.metadata-releasability", [.text "GBR", .text "USA"])] with
    mapping := .ofList ["secret=S"] }

/-- The same with the levels exchanged. -/
def exchangedSource : Source := { levelledSource with record := levelledSource.record.exchanged }

theorem levelled_blocks_exchanged :
    ∃ tracker other, assignments levelledSource = .ok tracker ∧
      assignments exchangedSource = .ok other ∧
      tracker.below metadataBlock = other.below resourceBlock ∧
      tracker.below resourceBlock = other.below metadataBlock ∧
      tracker.below metadataBlock =
        [("/mgmp:caveat/gco:CharacterString", "EYES ONLY GBR/USA")] := by
  have hcaveat : securityWrites blockParts Attribute.metadataProtection levelledSource =
      .ok [.only blockParts.caveat "EYES ONLY GBR/USA"] := by decide +kernel
  obtain ⟨tracker, hok⟩ : Succeeds (assignments levelledSource) :=
    succeeds_of_faultOf? (by decide +kernel)
  obtain ⟨other, hother⟩ : Succeeds (assignments exchangedSource) :=
    succeeds_of_faultOf? (by decide +kernel)
  have hrecords : levelledSource.record.Exchanges exchangedSource.record :=
    Record.exchanges_exchanged _
  have hmapping : levelledSource.mapping = exchangedSource.mapping := rfl
  obtain ⟨hmetadata, hresource⟩ := blocks_exchanged hrecords hmapping hok hother
  obtain ⟨parts, hparts, hbelow⟩ := below_metadataBlock hok
  rw [hcaveat] at hparts
  refine ⟨tracker, other, hok, hother, hmetadata, hresource, ?_⟩
  rw [hbelow, ← Except.ok.inj hparts]
  decide

end Profile

end GeoMetadata
