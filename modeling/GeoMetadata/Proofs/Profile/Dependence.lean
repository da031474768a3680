import GeoMetadata.Proofs.Profile.Contributions

/-!
# What a conversion reads

A conversion looks at a record by name: at whether an attribute is set, and at its values without
nulls.  Of the settings it reads the default language and the reference system, and of the security
mapping the codes of values.  `Source.AgreeOn` says of two sources that they agree in all this as
far as some attributes go.

Lookups that go by the values alone agree if these do (`Record.AgreeOn.string?` and the others), and
a section whose lookups agree gives the same (`Section.ReadsOnly`).  So for each section it has to
be said which names it looks up, and no more.

The two sections with a security block read the attributes of its protection and the overall
classification (`securityWrites_eq`).  The others read none of these, but only the `openAttributes`
(`isSecurity_or_readsOnly`).  So sources that agree on the attributes of both kinds are converted
alike, event by event (`run_eq_of_agreeOn`).
-/

namespace GeoMetadata

/-! ## Records -/

/-- The records agree on some attributes: on whether they are set and on their values, nulls aside.
They are of the same catalog source. -/
structure Record.AgreeOn (names : List String) (first second : Record) : Prop where
  has : ∀ name ∈ names, first.has name = second.has name
  values : ∀ name ∈ names, first.values name = second.values name
  sourceId : first.sourceId = second.sourceId

namespace Record.AgreeOn

variable {names others : List String} {first second : Record}

theorem mono (h : first.AgreeOn names second) (hsub : others ⊆ names) :
    first.AgreeOn others second where
  has name hname := h.has name (hsub hname)
  values name hname := h.values name (hsub hname)
  sourceId := h.sourceId

/-- The records agree on attributes for which they have the same lists of values. -/
theorem of_get? (hsource : first.sourceId = second.sourceId)
    (hget : ∀ name ∈ names, first.attributes.get? name = second.attributes.get? name) :
    first.AgreeOn names second where
  has name hname := by rw [Record.has, OrderedMap.contains, hget name hname]; rfl
  values name hname := by rw [Record.values, hget name hname]; rfl
  sourceId := hsource

theorem value? (h : first.AgreeOn names second) (name : String) (hname : name ∈ names) :
    first.value? name = second.value? name := by
  rw [Record.value?, h.values name hname, Record.value?]

theorem string? (h : first.AgreeOn names second) (name : String) (hname : name ∈ names) :
    first.string? name = second.string? name := by
  rw [Record.string?, h.value? name hname, Record.string?]

theorem strings (h : first.AgreeOn names second) (name : String) (hname : name ∈ names) :
    first.strings name = second.strings name := by
  rw [Record.strings, h.values name hname, Record.strings]

theorem moment? (h : first.AgreeOn names second) (name : String) (hname : name ∈ names) :
    first.moment? name = second.moment? name := by
  rw [Record.moment?, h.value? name hname, Record.moment?]

theorem moments (h : first.AgreeOn names second) (name : String) (hname : name ∈ names) :
    first.moments name = second.moments name := by
  rw [Record.moments, h.values name hname, Record.moments]

theorem numbers? (h : first.AgreeOn names second) (name : String) (hname : name ∈ names) :
    first.numbers? name = second.numbers? name := by
  rw [Record.numbers?, h.values name hname, Record.numbers?]

end Record.AgreeOn

namespace Profile

/-! ## Sources -/

/-- The sources agree on some attributes of their records, and in all else that is read. -/
structure Source.AgreeOn (names : List String) (first second : Source) : Prop where
  record : first.record.AgreeOn names second.record
  defaultLanguage : first.settings.defaultLanguage = second.settings.defaultLanguage
  gmlSrsName : first.settings.gmlSrsName = second.settings.gmlSrsName
  codeOf? : ∀ value, first.mapping.codeOf? value = second.mapping.codeOf? value
  systemName : first.systemName = second.systemName
  now : first.now = second.now
  gmlId : first.gmlId = second.gmlId

theorem Source.AgreeOn.mono {names others : List String} {first second : Source}
    (h : first.AgreeOn names second) (hsub : others ⊆ names) : first.AgreeOn others second :=
  { h with record := h.record.mono hsub }

/-- What the section gives does not depend on anything but some attributes and what sources have
beside their records. -/
def Section.ReadsOnly (names : List String) (part : Section) : Prop :=
  ∀ first second : Source, first.AgreeOn names second →
    part.contribute first = part.contribute second

theorem Section.ReadsOnly.mono {names others : List String} {part : Section}
    (h : part.ReadsOnly names) (hsub : names ⊆ others) : part.ReadsOnly others :=
  fun first second hagree => h first second (hagree.mono hsub)

section Kinds

variable {names : List String} {name : String}

theorem readsOnly_plain {writes : Source → List Write}
    (h : ∀ first second : Source, first.AgreeOn names second → writes first = writes second) :
    (Section.plain name writes).ReadsOnly names := by
  intro first second hagree
  funext progress
  exact congrArg (fun given => Except.ok (Contribution.mk given progress []))
    (h first second hagree)

theorem readsOnly_checked {writes : Source → Except ConversionFault (List Write)}
    (h : ∀ first second : Source, first.AgreeOn names second → writes first = writes second) :
    (Section.checked name writes).ReadsOnly names := by
  intro first second hagree
  funext progress
  exact congrArg (Except.map fun given => Contribution.mk given progress [])
    (h first second hagree)

end Kinds

/-! ## Attributes -/

/-- The attributes of a party. -/
def partyAttributes (party : Attribute.Party) : List String :=
  [party.name, party.phone, party.address, party.email]

/-- The attributes that are read outside of security blocks. -/
def openAttributes : List String :=
  [Attribute.id, Attribute.title, Attribute.description, Attribute.created, Attribute.modified,
    Attribute.expiration, Attribute.language, Attribute.location, Attribute.downloadUrl,
    Attribute.metacardCreated, Attribute.metacardModified, Attribute.metacardRelated,
    Attribute.resourceStatus, Attribute.publishedDate, Attribute.altitude, Attribute.countryCode,
    Attribute.crsCode, Attribute.start, Attribute.end, Attribute.topicCategory, Attribute.keyword,
    Attribute.mediaFormat, Attribute.mediaFormatVersion, Attribute.cloudCover, Attribute.comments,
    Attribute.imageryRating] ++ partyAttributes Attribute.publisher
    ++ partyAttributes Attribute.pointOfContact

/-- The attributes that protect a resource or its metadata. -/
def protectionAttributes (protection : Attribute.Protection) : List String :=
  [protection.classification, protection.originatorClassification, protection.dissemination,
    protection.releasability]

/-- The attributes that a security block reads: a classification that is missing is taken from the
overall one. -/
def securityAttributes (protection : Attribute.Protection) : List String :=
  Attribute.classification :: protectionAttributes protection

/-- The attributes that conversions read. -/
def readAttributes : List String :=
  openAttributes ++ securityAttributes Attribute.resourceProtection
    ++ securityAttributes Attribute.metadataProtection

/-! ## The open sections -/

section Open

variable {first second : Source}

theorem partyWrites_eq (h : first.AgreeOn openAttributes second) {party : Attribute.Party}
    (hparty : partyAttributes party ⊆ openAttributes) (places : Layout.PartyPlaces)
    (role label : String) :
    partyWrites places party role label first.record =
      partyWrites places party role label second.record := by
  have hagree := h.record.mono hparty
  simp only [partyWrites, hagree.string? party.name (by simp [partyAttributes]),
    hagree.strings party.phone (by simp [partyAttributes]),
    hagree.strings party.address (by simp [partyAttributes]),
    hagree.strings party.email (by simp [partyAttributes])]

theorem languageWrites_eq (h : first.AgreeOn openAttributes second) :
    languageWrites first = languageWrites second := by
  have hlanguage : recordLanguage first = recordLanguage second := by
    simp (disch := decide) only [recordLanguage, h.record.string?, h.defaultLanguage]
  rw [languageWrites, hlanguage, languageWrites]

theorem stampDate_eq
    (h : first.AgreeOn [Attribute.metacardModified, Attribute.metacardCreated] second) :
    stampDate first = stampDate second := by
  simp (disch := decide) only [stampDate, h.record.moment?, h.now]

theorem dateStampWrites_eq (h : first.AgreeOn openAttributes second) :
    dateStampWrites first = dateStampWrites second := by
  rw [dateStampWrites, stampDate_eq (h.mono (by decide)), dateStampWrites]

/-- The citation has the dates of the attributes in the list of kinds. -/
theorem citationDates_eq (h : first.AgreeOn (dateKinds.map DateKind.name) second) :
    citationDates first.record = citationDates second.record :=
  List.filterMap_congr fun kind hkind => by
    rw [h.record.moment? kind.name (List.mem_map_of_mem hkind)]

theorem citationWrites_eq (h : first.AgreeOn openAttributes second) :
    citationWrites first = citationWrites second := by
  have hdates := citationDates_eq (h.mono (by decide))
  have hname : sourceName? first = sourceName? second := by
    simp only [sourceName?, h.systemName, h.record.sourceId]
  have hidentifiers : citationIdentifiers first = citationIdentifiers second := by
    simp (disch := decide) only [citationIdentifiers, h.record.string?, hname]
  simp (disch := decide) only [citationWrites, hdates, hidentifiers, h.record.string?,
    h.record.moment?]

theorem statusWrites_eq (h : first.AgreeOn openAttributes second) :
    statusWrites first = statusWrites second := by
  have hstatus : status? first.record = status? second.record := by
    simp (disch := decide) only [status?, h.record.has, h.record.string?]
  rw [statusWrites, hstatus, statusWrites]

theorem resourceLanguages_eq (h : first.AgreeOn [Attribute.language] second) :
    resourceLanguages first = resourceLanguages second := by
  simp (disch := decide) only [resourceLanguages, h.record.strings, h.defaultLanguage]

theorem resourceLanguageWrites_eq (h : first.AgreeOn openAttributes second) :
    resourceLanguageWrites first = resourceLanguageWrites second := by
  rw [resourceLanguageWrites, resourceLanguages_eq (h.mono (by decide)), resourceLanguageWrites]

theorem locationContribution_eq (h : first.AgreeOn openAttributes second) :
    locationContribution first = locationContribution second := by
  funext progress
  simp (disch := decide) only [locationContribution, boundingBoxContribution, h.record.string?,
    h.gmlSrsName, h.gmlId]

theorem temporalContribution_eq (h : first.AgreeOn openAttributes second) :
    temporalContribution first = temporalContribution second := by
  funext progress
  simp (disch := decide) only [temporalContribution, h.record.moments, h.gmlId]

theorem imageWrites_eq (h : first.AgreeOn openAttributes second) :
    imageWrites first = imageWrites second := by
  have hcover : cloudCover? first.record = cloudCover? second.record := by
    simp (disch := decide) only [cloudCover?, h.record.value?]
  have hcomment : commentWrites first.record = commentWrites second.record := by
    simp (disch := decide) only [commentWrites, h.record.strings]
  simp (disch := decide) only [imageWrites, hcover, hcomment, h.record.values, h.record.has]

end Open

/-! ## Security blocks -/

/-- Blocks in which the same texts and values are found are the same, whatever the attributes are
called. -/
theorem securityWrites_congr {own other : Attribute.Protection} {first second : Source}
    (hmapping : ∀ value, first.mapping.codeOf? value = second.mapping.codeOf? value)
    (hoverall : first.record.string? Attribute.classification =
      second.record.string? Attribute.classification)
    (hclassification : first.record.string? own.classification =
      second.record.string? other.classification)
    (horiginator : first.record.string? own.originatorClassification =
      second.record.string? other.originatorClassification)
    (hdissemination : first.record.value? own.dissemination =
      second.record.value? other.dissemination)
    (hreleasability : first.record.values own.releasability =
      second.record.values other.releasability) (places : Layout.SecurityPlaces) :
    securityWrites places own first = securityWrites places other second := by
  -- Unfolded down to the lookups, the two sides differ in the names of attributes only.
  have hcodes : first.mapping.codeOf? = second.mapping.codeOf? := funext hmapping
  simp only [securityWrites, Classification.government?, Classification.fine?,
    Classification.firstResolved?, Classification.governmentChain, Classification.fineChain,
    List.findSome?_cons, List.findSome?_nil, Classification.governmentFrom?,
    Classification.governmentOverall?, Classification.fineFrom?, Classification.fineOverall?, hcodes,
    hclassification, horiginator, hoverall, hdissemination, hreleasability]

/-- A security block reads the attributes of its protection and the overall classification. -/
theorem securityWrites_eq {protection : Attribute.Protection} {first second : Source}
    (h : first.AgreeOn (securityAttributes protection) second) (places : Layout.SecurityPlaces) :
    securityWrites places protection first = securityWrites places protection second :=
  securityWrites_congr h.codeOf? (h.record.string? _ (by simp [securityAttributes]))
    (h.record.string? _ (by simp [securityAttributes, protectionAttributes]))
    (h.record.string? _ (by simp [securityAttributes, protectionAttributes]))
    (h.record.value? _ (by simp [securityAttributes, protectionAttributes]))
    (h.record.values _ (by simp [securityAttributes, protectionAttributes])) places

/-- The section on the constraints of the resource. -/
def resourceSection : Section := .checked "resource_constraints" resourceConstraintWrites

/-- The section on the constraints of the metadata. -/
def metadataSection : Section := .checked "metadata_constraints" metadataConstraintWrites

theorem readsOnly_resourceSection :
    resourceSection.ReadsOnly (securityAttributes Attribute.resourceProtection) :=
  readsOnly_checked fun first second h => by
    rw [resourceConstraintWrites, securityWrites_eq h, resourceConstraintWrites]

theorem readsOnly_metadataSection :
    metadataSection.ReadsOnly (securityAttributes Attribute.metadataProtection) :=
  readsOnly_checked fun _ _ h => securityWrites_eq h _

/-! ## All sections -/

/-- Only the sections with a security block read other attributes than the open ones. -/
theorem isSecurity_or_readsOnly :
    ∀ part ∈ sections, part ∈ [resourceSection, metadataSection] ∨
      part.ReadsOnly openAttributes := by
  simp only [sections, List.forall_mem_cons]
  -- In the order of the sections, of which the fifteenth and the last have a security block.
  exact
    ⟨.inr (readsOnly_plain fun _ _ _ => rfl),
      .inr (readsOnly_plain fun _ _ h => by
        simp (disch := decide) only [fileIdentifierWrites, h.record.string?]),
      .inr (readsOnly_plain fun _ _ => languageWrites_eq),
      .inr (readsOnly_plain fun _ _ _ => rfl),
      .inr (readsOnly_plain fun _ _ _ => rfl),
      .inr (readsOnly_plain fun _ _ h => partyWrites_eq h (by decide) _ _ _),
      .inr (readsOnly_checked fun _ _ => dateStampWrites_eq),
      .inr (readsOnly_plain fun _ _ _ => rfl),
      .inr (readsOnly_plain fun _ _ h => by
        simp (disch := decide) only [referenceSystemWrites, h.record.strings]),
      .inr (readsOnly_checked fun _ _ => citationWrites_eq),
      .inr (readsOnly_plain fun _ _ h => by
        simp (disch := decide) only [abstractWrites, h.record.string?]),
      .inr (readsOnly_plain fun _ _ => statusWrites_eq),
      .inr (readsOnly_plain fun _ _ h => partyWrites_eq h (by decide) _ _ _),
      .inr (readsOnly_plain fun _ _ h => by
        simp (disch := decide) only [keywordWrites, h.record.strings]),
      .inl (List.mem_cons_self),
      .inr (readsOnly_plain fun _ _ h => by
        simp (disch := decide) only [aggregationWrites, h.record.string?]),
      .inr (readsOnly_plain fun _ _ => resourceLanguageWrites_eq),
      .inr (readsOnly_plain fun _ _ h => by
        simp (disch := decide) only [topicWrites, h.record.strings]),
      .inr (fun _ _ h => funext fun _ => by
        simp (disch := decide) only [countryContribution, h.record.strings]),
      .inr (fun _ _ => locationContribution_eq),
      .inr (fun _ _ => temporalContribution_eq),
      .inr (readsOnly_checked fun _ _ h => by
        simp (disch := decide) only [verticalWrites, h.record.numbers?]),
      .inr (readsOnly_checked fun _ _ => imageWrites_eq),
      .inr (readsOnly_plain fun _ _ h => by
        simp (disch := decide) only [distributionWrites, h.record.string?]),
      .inl (List.mem_cons_of_mem _ List.mem_cons_self),
      by simp⟩

theorem readsOnly_of_mem {part : Section} (hpart : part ∈ sections) :
    part.ReadsOnly readAttributes := by
  rcases isSecurity_or_readsOnly part hpart with hsecurity | hopen
  · simp only [List.mem_cons, List.not_mem_nil, or_false] at hsecurity
    rcases hsecurity with rfl | rfl
    · exact readsOnly_resourceSection.mono (by simp [readAttributes])
    · exact readsOnly_metadataSection.mono (by simp [readAttributes])
  · exact hopen.mono (by simp [readAttributes])

/-- Sections that give the same are run alike. -/
theorem runSections_congr {first second : Source} {parts : List Section} {draft : Draft}
    (h : ∀ part ∈ parts, part.contribute first = part.contribute second) :
    runSections first parts draft = runSections second parts draft := by
  induction parts generalizing draft with
  | nil => rfl
  | cons part rest ih =>
      obtain ⟨hpart, hrest⟩ := List.forall_mem_cons.mp h
      rw [runSections, Section.extend, hpart, runSections, Section.extend]
      cases (part.contribute second draft.progress >>= draft.add part.name) with
      | ok extended => exact ih hrest
      | error fault => rfl

/-- Sources that agree on the attributes that are read are converted alike: with the same
assignments, the same events and the same fault, if there is one. -/
theorem run_eq_of_agreeOn {first second : Source} (h : first.AgreeOn readAttributes second) :
    run first = run second :=
  runSections_congr fun _ hpart => readsOnly_of_mem hpart first second h

theorem assignments_eq_of_agreeOn {first second : Source}
    (h : first.AgreeOn readAttributes second) : assignments first = assignments second := by
  rw [assignments, run_eq_of_agreeOn h, assignments]

end Profile

end GeoMetadata
