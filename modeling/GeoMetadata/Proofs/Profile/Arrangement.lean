import GeoMetadata.Proofs.Profile.Contract
import GeoMetadata.Proofs.Profile.Contributions
import GeoMetadata.Proofs.Profile.Extent

/-!
# The arrangement of the writes

All writes of a document go to the templates of their sections, at positive indices, and every
write precedes those after it (`Arranged`).  This is built up the way the sections build up their
writes:

* single writes follow a list of templates that precede each other (`arranged_of_sublist`);
* a loop writes to templates that part at the index, so its rounds do not get in each other's way
  (`arranged_flatMap`, `arranged_eachFrom`);
* one after the other, the templates of the first precede those of the second
  (`Arranged.append`).

Writes are compared by their templates.  Where the templates are known one by one, that they take
turns (`InTurn`) or part at the index is decided, and what is left to prove about a section is in
which order it writes and which indices it uses.  `sections_arranges_sectionTemplates` puts the
sections beside the table of their templates, and that the templates of one section precede those of
the next is read off the table (`precedes_of_sections`).

The sections follow one by one, and `exists_composed` says what it comes to for a document: its
assignments are the writes of the sections, one for each and in order, because no two of their paths
are the same.  What concerns one section alone is shown after cutting the writes there
(`exists_allWrites_split`): those before and after are known by their templates.
-/

namespace GeoMetadata.Profile

open Document (Precedes)
open GeoMetadata.Path (Template)

/-- The segments of the place of a write. -/
def Write.segments (write : Write) : List Segment := write.template.segments write.index

/-- The writes go to some templates at positive indices, and each precedes those after it. -/
structure Arranged (templates : List Template) (writes : List Write) : Prop where
  mem : ∀ write ∈ writes, write.template ∈ templates
  positive : ∀ write ∈ writes, 0 < write.index
  pairwise : writes.Pairwise fun first second => Precedes rank "" first.segments second.segments

/-- All places of each of the templates precede those of the templates after it. -/
abbrev InTurn (templates : List Template) : Prop :=
  templates.Pairwise fun first second => Template.precedes rank "" first second = true

variable {templates first second : List Template} {writes before after : List Write}

/-! ## Putting writes together -/

theorem arranged_nil (templates : List Template) : Arranged templates [] :=
  ⟨by simp, by simp, List.Pairwise.nil⟩

theorem Arranged.mono (h : Arranged first writes) (hsub : ∀ t ∈ first, t ∈ second) :
    Arranged second writes :=
  ⟨fun write hwrite => hsub _ (h.mem write hwrite), h.positive, h.pairwise⟩

theorem Arranged.append_of_forall (hbefore : Arranged first before) (hafter : Arranged second after)
    (hcross : ∀ t ∈ first, ∀ u ∈ second, Template.precedes rank "" t u = true) :
    Arranged (first ++ second) (before ++ after) where
  mem := List.forall_mem_append.mpr
    ⟨fun write h => List.mem_append_left _ (hbefore.mem write h),
      fun write h => List.mem_append_right _ (hafter.mem write h)⟩
  positive := List.forall_mem_append.mpr ⟨hbefore.positive, hafter.positive⟩
  pairwise := List.pairwise_append.mpr ⟨hbefore.pairwise, hafter.pairwise, fun v hv w hw =>
    Template.precedes_segments (hcross _ (hbefore.mem v hv) _ (hafter.mem w hw)) _ _⟩

theorem Arranged.append (hbefore : Arranged first before) (hafter : Arranged second after)
    (hturn : InTurn (first ++ second)) : Arranged (first ++ second) (before ++ after) :=
  hbefore.append_of_forall hafter (List.pairwise_append.mp hturn).2.2

/-- Single writes to templates that take turns, of which some may be left out. -/
theorem arranged_of_sublist (hsub : (writes.map Write.template).Sublist templates)
    (hturn : InTurn templates) (hpositive : ∀ write ∈ writes, 0 < write.index) :
    Arranged templates writes where
  mem write hwrite := hsub.subset (List.mem_map_of_mem hwrite)
  positive := hpositive
  pairwise := by
    have hwrites : (writes.map Write.template).Pairwise fun t u =>
        Template.precedes rank "" t u = true := hturn.sublist hsub
    exact (List.pairwise_map.mp hwrites).imp fun h => Template.precedes_segments h _ _

/-- The rounds of a loop, each with its own index, to templates that part at the index. -/
theorem arranged_flatMap {α : Type} {items : List α} (number : α → Nat) {round : α → List Write}
    (hround : ∀ item ∈ items, Arranged templates (round item))
    (hnumber : ∀ item ∈ items, ∀ write ∈ round item, write.index = number item)
    (hdistinct : (items.map number).Nodup)
    (hdiverge : ∀ t ∈ templates, ∀ u ∈ templates, Template.diverges t u = true) :
    Arranged templates (items.flatMap round) where
  mem write hwrite := by
    obtain ⟨item, hitem, hwrite⟩ := List.mem_flatMap.mp hwrite
    exact (hround item hitem).mem write hwrite
  positive write hwrite := by
    obtain ⟨item, hitem, hwrite⟩ := List.mem_flatMap.mp hwrite
    exact (hround item hitem).positive write hwrite
  pairwise := by
    rw [List.pairwise_flatMap]
    refine ⟨fun item hitem => (hround item hitem).pairwise, ?_⟩
    rw [List.nodup_iff_pairwise_ne, List.pairwise_map] at hdistinct
    refine hdistinct.imp_of_mem fun {item other} hitem hother hne v hv w hw => ?_
    -- Writes of two rounds have different indices, and their places part there.
    refine Template.precedes_segments_of_diverges (hdiverge _ ((hround item hitem).mem v hv) _
      ((hround other hother).mem w hw)) ?_
    rwa [hnumber item hitem v hv, hnumber other hother w hw]

theorem map_snd_zipIdx {α : Type} (items : List α) (start : Nat) :
    (items.zipIdx start).map Prod.snd = List.range' start items.length := by
  simp

/-- The rounds of a loop that counts. -/
theorem arranged_flatMap_zipIdx {α : Type} {items : List α} {start : Nat}
    (round : α → Nat → List Write) (hstart : 0 < start)
    (hround : ∀ item index, 0 < index → Arranged templates (round item index))
    (hnumber : ∀ item index, ∀ write ∈ round item index, write.index = index)
    (hdiverge : ∀ t ∈ templates, ∀ u ∈ templates, Template.diverges t u = true) :
    Arranged templates ((items.zipIdx start).flatMap fun entry => round entry.1 entry.2) := by
  refine arranged_flatMap Prod.snd (fun item hitem => ?_)
    (fun item _ => hnumber item.1 item.2) ?_ hdiverge
  · exact hround _ _ (Nat.lt_of_lt_of_le hstart (List.le_snd_of_mem_zipIdx hitem))
  · rw [map_snd_zipIdx]
    exact List.nodup_range'

theorem arranged_singleton (write : Write) (hpositive : 0 < write.index) :
    Arranged [write.template] [write] :=
  arranged_of_sublist (List.Sublist.refl _) (List.pairwise_singleton _ _) (by simpa using hpositive)

theorem arranged_eachFrom {template : Template} {start : Nat} {values : List String}
    (hstart : 0 < start) (hdiverge : Template.diverges template template = true) :
    Arranged [template] (eachFrom start template values) := by
  rw [eachFrom, ← List.flatMap_singleton' ((values.zipIdx start).map _), List.flatMap_map]
  exact arranged_flatMap_zipIdx (fun value index => [⟨template, index, value⟩]) hstart
    (fun value index hindex => arranged_singleton ⟨template, index, value⟩ hindex)
    (by simp) (by simpa using hdiverge)

theorem arranged_each {template : Template} (values : List String)
    (hdiverge : Template.diverges template template = true) :
    Arranged [template] (each template values) := arranged_eachFrom Nat.one_pos hdiverge

theorem sublist_optional (template : Template) (value : Option String) :
    ((optional template value).map Write.template).Sublist [template] := by
  cases value with
  | none => exact List.nil_sublist _
  | some value => exact List.Sublist.refl _

theorem positive_optional (template : Template) (value : Option String) :
    ∀ write ∈ optional template value, 0 < write.index := by
  cases value <;> simp [optional, Write.only]

theorem arranged_optional (template : Template) (value : Option String) :
    Arranged [template] (optional template value) :=
  arranged_of_sublist (sublist_optional _ _) (List.pairwise_singleton _ _) (positive_optional _ _)

theorem arranged_codeWrites {places : Layout.CodePlaces} {index : Nat} (code : ClassificationCode)
    (hindex : 0 < index) (hturn : InTurn (codeTemplates places)) :
    Arranged (codeTemplates places) (codeWrites places index code) :=
  arranged_of_sublist (List.Sublist.refl _) hturn (by simp [codeWrites, hindex])

theorem arranged_identifierWrites {places : Layout.IdentifierPlaces} {index : Nat}
    {code codeSpace : String} (hindex : 0 < index) (hturn : InTurn (identifierTemplates places)) :
    Arranged (identifierTemplates places) (identifierWrites places index code codeSpace) :=
  arranged_of_sublist (List.Sublist.refl _) hturn (by simp [identifierWrites, hindex])

/-! ## The sections

Each section writes to the templates that `sectionTemplates` lists for it, in that order.  What it
leaves out does not matter, and what it writes in rounds parts at the index. -/

section Sections

variable {source : Source}

/-- A party's parts take turns, and its means of contact are numbered. -/
theorem arranged_partyWrites {places : Layout.PartyPlaces} {party : Attribute.Party}
    {role label : String} {record : Record} (hturn : InTurn (partyTemplates places))
    (hdiverge : ∀ t ∈ [places.phone, places.address, places.email],
      Template.diverges t t = true) :
    Arranged (partyTemplates places) (partyWrites places party role label record) := by
  have hturns {templates : List Template} (hsub : templates.Sublist (partyTemplates places)) :
      InTurn templates := hturn.sublist hsub
  rw [List.forall_mem_cons, List.forall_mem_cons, List.forall_mem_singleton] at hdiverge
  obtain ⟨hphone, haddress, hemail⟩ := hdiverge
  have horganisation := arranged_optional places.organisation (record.string? party.name)
  have hphones := horganisation.append (arranged_each (record.strings party.phone) hphone)
    (hturns (by simp [partyTemplates]))
  have haddresses := hphones.append
    (arranged_each (record.strings party.address) haddress)
    (hturns (by simp [partyTemplates]))
  have hemails := haddresses.append (arranged_each (record.strings party.email) hemail)
    (hturns (by simp [partyTemplates]))
  exact hemails.append (arranged_codeWrites ⟨roleList, role, label⟩ Nat.one_pos
    (hturns (List.sublist_append_right _ _))) hturn

theorem arranged_contactWrites :
    Arranged (partyTemplates Layout.contact) (contactWrites source) :=
  arranged_partyWrites (by decide) (by decide)

theorem arranged_pointOfContactWrites :
    Arranged (partyTemplates Layout.pointOfContact) (pointOfContactWrites source) :=
  arranged_partyWrites (by decide) (by decide)

theorem arranged_referenceSystemWrites :
    Arranged (identifierTemplates Layout.referenceSystem) (referenceSystemWrites source) :=
  (arranged_each _ (by decide)).append (arranged_each _ (by decide)) (by decide)

theorem arranged_title (title : String) :
    Arranged [Layout.title] [.only Layout.title title] :=
  arranged_singleton (.only Layout.title title) Nat.one_pos

theorem arranged_citationDates (dates : List (DateKind × String)) :
    Arranged
      [Layout.citationDateValue, Layout.citationDateType.codeListValue,
        Layout.citationDateType.codeList, Layout.citationDateType.text]
      ((dates.zipIdx 1).flatMap fun entry => citationDateWrites entry.2 entry.1.1 entry.1.2) :=
  arranged_flatMap_zipIdx
    (fun (date : DateKind × String) index => citationDateWrites index date.1 date.2)
    Nat.one_pos
    (fun date index hindex => arranged_of_sublist (List.Sublist.refl _) (by decide)
      (by simp [citationDateWrites, hindex]))
    (fun date index => by simp [citationDateWrites]) (by decide)

theorem arranged_citationIdentifiers (identifiers : List (String × String)) :
    Arranged (identifierTemplates Layout.citationIdentifier)
      ((identifiers.zipIdx 1).flatMap fun entry =>
        identifierWrites Layout.citationIdentifier entry.2 entry.1.1 entry.1.2) :=
  arranged_flatMap_zipIdx
    (fun (code : String × String) index =>
      identifierWrites Layout.citationIdentifier index code.1 code.2)
    Nat.one_pos
    (fun code index hindex => arranged_identifierWrites hindex (by decide))
    (fun code index => by simp [identifierWrites]) (by decide)

/-- The rounds of the dates and of the identifiers stand between single writes. -/
theorem arranged_citationWrites (hok : citationWrites source = .ok writes) :
    Arranged
      ([Layout.title]
        ++ [Layout.citationDateValue, Layout.citationDateType.codeListValue,
          Layout.citationDateType.codeList, Layout.citationDateType.text]
        ++ [Layout.editionDate] ++ identifierTemplates Layout.citationIdentifier) writes := by
  obtain ⟨dates, -, hok⟩ := bind_eq_ok_iff.mp hok
  obtain ⟨edition, -, hok⟩ := bind_eq_ok_iff.mp hok
  obtain rfl := Except.ok.inj hok
  exact (((arranged_title _).append (arranged_citationDates dates) (by decide)).append
    (arranged_optional _ _) (by decide)).append (arranged_citationIdentifiers _) (by decide)

theorem arranged_statusWrites :
    Arranged [Layout.status.codeListValue, Layout.status.codeList, Layout.status.text]
      (statusWrites source) := by
  unfold statusWrites
  split
  · exact arranged_nil _
  · exact arranged_of_sublist (List.Sublist.refl _) (by decide) (by simp [Write.only])

/-- There are keywords or an empty element, but not both. -/
theorem arranged_keywordWrites :
    Arranged [Layout.keywords, Layout.keyword] (keywordWrites source) := by
  unfold keywordWrites
  split
  · exact (arranged_singleton (.only Layout.keywords "") Nat.one_pos).mono (by simp [Write.only])
  · exact (arranged_each _ (by decide)).mono (by simp)

theorem arranged_topicWrites :
    Arranged [Layout.noTopicCategory, Layout.topicCategory] (topicWrites source) := by
  unfold topicWrites
  split
  · exact (arranged_singleton (.only Layout.noTopicCategory "") Nat.one_pos).mono
      (by simp [Write.only])
  · exact (arranged_each _ (by decide)).mono (by simp)

/-- The parts of a security block are single writes, whichever of them there are. -/
theorem arranged_securityWrites {places : Layout.SecurityPlaces}
    {protection : Attribute.Protection} (hturn : InTurn (securityTemplates places))
    (hok : securityWrites places protection source = .ok writes) :
    Arranged (securityTemplates places) writes := by
  obtain ⟨caveat, -, hok⟩ := bind_eq_ok_iff.mp hok
  obtain rfl := Except.ok.inj hok
  have hcode (code : Option ClassificationCode) (places : Layout.CodePlaces)
      (hturn : InTurn (codeTemplates places)) :
      Arranged (codeTemplates places) (code.elim [] (codeWrites places 1)) := by
    cases code with
    | none => exact arranged_nil _
    | some code => exact arranged_codeWrites code Nat.one_pos hturn
  have hcodes : InTurn
      (codeTemplates places.classification ++ codeTemplates places.originatorClassification) :=
    hturn.sublist (List.sublist_append_left _ _)
  have hclassification := hcode
    (Classification.government? protection.classification source.mapping source.record) _
    (hcodes.sublist (List.sublist_append_left _ _))
  have horiginator := hcode
    (Classification.fine? protection.originatorClassification source.record) _
    (hcodes.sublist (List.sublist_append_right _ _))
  exact (hclassification.append horiginator hcodes).append (arranged_optional _ _) hturn

theorem arranged_resourceConstraintWrites (hok : resourceConstraintWrites source = .ok writes) :
    Arranged (securityTemplates Layout.resourceSecurity
      ++ [Layout.useLimitation, Layout.otherConstraints]) writes := by
  obtain ⟨security, hsecurity, hok⟩ := bind_eq_ok_iff.mp hok
  obtain rfl := Except.ok.inj hok
  have hlimitations : Arranged [Layout.useLimitation, Layout.otherConstraints]
      [⟨Layout.useLimitation, 2, useLimitation⟩, ⟨Layout.otherConstraints, 3, otherConstraints⟩] :=
    arranged_of_sublist (List.Sublist.refl _) (by decide) (by simp)
  exact (arranged_securityWrites (by decide) hsecurity).append hlimitations
    (by decide)

theorem arranged_aggregationWrites :
    Arranged (identifierTemplates Layout.related ++ codeTemplates Layout.associationType)
      (aggregationWrites source) := by
  unfold aggregationWrites
  split
  · exact arranged_nil _
  · exact (arranged_identifierWrites Nat.one_pos (by decide)).append
      (arranged_codeWrites _ Nat.one_pos (by decide)) (by decide)

theorem arranged_resourceLanguageWrites :
    Arranged (codeTemplates Layout.resourceLanguage) (resourceLanguageWrites source) :=
  ((arranged_each _ (by decide)).append (arranged_each _ (by decide))
    (by decide)).append (arranged_each _ (by decide)) (by decide)

theorem arranged_countryContribution {progress : Progress} :
    Arranged (identifierTemplates Layout.country) (countryContribution source progress).writes :=
  (arranged_eachFrom (Nat.succ_pos _) (by decide)).append
    (arranged_eachFrom (Nat.succ_pos _) (by decide)) (by decide)

/-- A polygon with its box, or an empty box, or nothing. -/
theorem arranged_locationContribution {progress : Progress} {given : Contribution}
    (hok : locationContribution source progress = .ok given) :
    Arranged
      ([Layout.polygonId, Layout.polygonSrsName, Layout.polygonPositions]
        ++ Layout.bounds.map Layout.boundNumber ++ Layout.bounds) given.writes := by
  unfold locationContribution at hok
  split at hok
  · obtain rfl := Except.ok.inj hok
    have hbounds : Arranged Layout.bounds (emptyBoundWrites (progress.geographic + 1)) :=
      arranged_of_sublist (by simp [emptyBoundWrites, Function.comp_def]) (by decide)
        (by simp [emptyBoundWrites])
    exact hbounds.mono fun t ht => List.mem_append_right _ ht
  · split at hok
    · rename_i box hbox
      obtain rfl := Except.ok.inj hok
      have hpolygon (index : Nat) (hindex : 0 < index) (id srsName positions : String) :
          Arranged [Layout.polygonId, Layout.polygonSrsName, Layout.polygonPositions]
            [⟨Layout.polygonId, index, id⟩, ⟨Layout.polygonSrsName, index, srsName⟩,
              ⟨Layout.polygonPositions, index, positions⟩] :=
        arranged_of_sublist (List.Sublist.refl _) (by decide) (by simp [hindex])
      unfold boundingBoxContribution
      split
      · exact (hpolygon _ (Nat.succ_pos _) _ _ _).mono fun t ht =>
          List.mem_append_left _ (List.mem_append_left _ ht)
      · rename_i bounds hbounds
        obtain ⟨west, east, south, north, rfl⟩ := exists_bounds?_eq hbounds
        have hnumbers : Arranged (Layout.bounds.map Layout.boundNumber)
            (boundWrites (progress.geographic + 1 + 1) [west, east, south, north]) :=
          arranged_of_sublist (List.Sublist.refl _) (by decide)
            (by simp [boundWrites, Layout.bounds])
        exact ((hpolygon _ (Nat.succ_pos _) _ _ _).append hnumbers (by decide)).mono
          fun t ht => List.mem_append_left _ ht
    · obtain rfl := Except.ok.inj hok
      exact arranged_nil _
    · nomatch hok

theorem arranged_temporalContribution {progress : Progress} {given : Contribution}
    (hok : temporalContribution source progress = .ok given) :
    Arranged
      [Layout.instantId, Layout.instantPosition, Layout.periodId, Layout.periodBegin,
        Layout.periodEnd] given.writes := by
  obtain ⟨starts, -, hok⟩ := bind_eq_ok_iff.mp hok
  obtain ⟨ends, -, hok⟩ := bind_eq_ok_iff.mp hok
  obtain rfl := Except.ok.inj hok
  refine arranged_flatMap TemporalExtent.index (fun extent hextent => ?_)
    (fun extent _ => ?_) ?_ (by decide)
  · have hindex := index_pos_of_mem_pairExtents hextent
    unfold extentWrites
    split
    · exact arranged_of_sublist (by simp) (by decide) (by simp [hindex])
    · exact arranged_of_sublist (by simp) (by decide) (by simp [hindex])
  · unfold extentWrites
    split <;> simp
  · rw [map_index_pairExtents]
    exact List.nodup_range'

theorem arranged_verticalWrites (hok : verticalWrites source = .ok writes) :
    Arranged
      [Layout.minimumAltitude, Layout.maximumAltitude, Layout.verticalCrsHref,
        Layout.verticalCrsTitle] writes := by
  unfold verticalWrites at hok
  split at hok
  · nomatch hok
  · split at hok
    · obtain rfl := Except.ok.inj hok
      exact arranged_of_sublist (List.Sublist.refl _) (by decide) (by simp [Write.only])
    · obtain rfl := Except.ok.inj hok
      exact arranged_nil _

/-- The parts of the description of an image are single writes, whichever of them there are. -/
theorem arranged_imageWrites (hok : imageWrites source = .ok writes) :
    Arranged
      ([Layout.imageComment, Layout.imageCommentNilReason]
        ++ [Layout.imageContentType.text, Layout.imageContentType.codeList,
          Layout.imageContentType.codeListValue]
        ++ identifierTemplates Layout.imageQuality ++ [Layout.cloudCover]) writes := by
  have hcomment : Arranged [Layout.imageComment, Layout.imageCommentNilReason]
      (commentWrites source.record) := by
    unfold commentWrites
    split
    · exact arranged_of_sublist (by simp [Write.only]) (by decide) (by simp [Write.only])
    · exact arranged_of_sublist (by simp [Write.only]) (by decide) (by simp [Write.only])
  have hcontent : Arranged
      [Layout.imageContentType.text, Layout.imageContentType.codeList,
        Layout.imageContentType.codeListValue] contentTypeWrites :=
    arranged_of_sublist (List.Sublist.refl _) (by decide)
      (by simp [contentTypeWrites, Write.only])
  have hdescription (described : Bool) : Arranged
      ([Layout.imageComment, Layout.imageCommentNilReason]
        ++ [Layout.imageContentType.text, Layout.imageContentType.codeList,
          Layout.imageContentType.codeListValue])
      (if described then commentWrites source.record ++ contentTypeWrites else []) := by
    cases described with
    | false => exact arranged_nil _
    | true => exact hcomment.append hcontent (by decide)
  have hall (described : Bool) {rating : List Write} (cover : Option String)
      (hrating : Arranged (identifierTemplates Layout.imageQuality) rating) :=
    ((hdescription described).append hrating (by decide)).append
      (arranged_optional Layout.cloudCover cover) (by decide)
  rw [imageWrites] at hok
  cases hratings : source.record.values Attribute.imageryRating with
  | nil =>
      rw [hratings] at hok
      obtain rfl := Except.ok.inj hok
      exact hall _ _ (arranged_nil _)
  | cons value rest =>
      rw [hratings] at hok
      cases htext : value.display with
      | error fault =>
          simp only [htext] at hok
          nomatch hok
      | ok text =>
          simp only [htext] at hok
          obtain rfl := Except.ok.inj hok
          exact hall _ _ (arranged_identifierWrites Nat.one_pos (by decide))

theorem arranged_distributionWrites :
    Arranged [Layout.formatName, Layout.formatVersion, Layout.linkage]
      (distributionWrites source) :=
  ((arranged_optional _ _).append (arranged_optional _ _) (by decide)).append
    (arranged_optional _ _) (by decide)

end Sections

/-! ## The document

The sections take turns, so that their writes are arranged by all templates of the document. -/

/-- Whatever a section gives is arranged by the templates. -/
def Section.Arranges (part : Section) (templates : List Template) : Prop :=
  ∀ source progress given, part.contribute source progress = .ok given →
    Arranged templates given.writes

theorem arranges_plain {name : String} {writes : Source → List Write}
    (h : ∀ source, Arranged templates (writes source)) :
    (Section.plain name writes).Arranges templates := by
  intro source progress given hok
  obtain rfl := Except.ok.inj hok
  exact h source

theorem arranges_checked {name : String} {writes : Source → Except ConversionFault (List Write)}
    (h : ∀ source given, writes source = .ok given → Arranged templates given) :
    (Section.checked name writes).Arranges templates := by
  intro source progress given hok
  obtain ⟨found, hfound, rfl⟩ := map_eq_ok_iff.mp hok
  exact h source found hfound

/-- Single writes to all of some templates that take turns. -/
theorem arranges_fixed {name : String} {writes : Source → List Write}
    (htemplates : ∀ source, (writes source).map Write.template = templates)
    (hindex : ∀ source, ∀ write ∈ writes source, 0 < write.index) (hturn : InTurn templates) :
    (Section.plain name writes).Arranges templates :=
  arranges_plain fun source =>
    arranged_of_sublist (htemplates source ▸ List.Sublist.refl _) hturn (hindex source)

theorem sections_arranges_sectionTemplates :
    List.Forall₂ Section.Arranges sections sectionTemplates := by
  have hmetadata (source : Source) (given : List Write)
      (hok : metadataConstraintWrites source = .ok given) :
      Arranged (securityTemplates Layout.metadataSecurity) given :=
    arranged_securityWrites (by decide) hok
  have hstamp (source : Source) (given : List Write) (hok : dateStampWrites source = .ok given) :
      Arranged [Layout.dateStamp] given := by
    obtain ⟨text, -, hok⟩ := bind_eq_ok_iff.mp hok
    obtain rfl := Except.ok.inj hok
    exact arranged_singleton (.only Layout.dateStamp text) Nat.one_pos
  exact
    .cons (arranges_fixed (fun _ => rfl) (fun _ => List.forall_mem_map.mpr fun _ _ => Nat.one_pos)
      (by decide)) <|
    .cons (arranges_fixed (fun _ => rfl) (by simp [fileIdentifierWrites, Write.only])
      (by decide)) <|
    .cons (arranges_fixed (fun _ => rfl) (by simp [languageWrites, codeWrites])
      (by decide)) <|
    .cons (arranges_fixed (fun _ => rfl) (by simp [characterSetWrites, codeWrites])
      (by decide)) <|
    .cons (arranges_fixed (fun _ => rfl) (by simp [hierarchyLevelWrites, Write.only])
      (by decide)) <|
    .cons (arranges_plain fun _ => arranged_contactWrites) <|
    .cons (arranges_checked hstamp) <|
    .cons (arranges_fixed (fun _ => rfl) (by simp [standardWrites, Write.only])
      (by decide)) <|
    .cons (arranges_plain fun _ => arranged_referenceSystemWrites) <|
    .cons (arranges_checked fun _ _ => arranged_citationWrites) <|
    .cons (arranges_fixed (fun _ => rfl) (by simp [abstractWrites, Write.only])
      (by decide)) <|
    .cons (arranges_plain fun _ => arranged_statusWrites) <|
    .cons (arranges_plain fun _ => arranged_pointOfContactWrites) <|
    .cons (arranges_plain fun _ => arranged_keywordWrites) <|
    .cons (arranges_checked fun _ _ => arranged_resourceConstraintWrites) <|
    .cons (arranges_plain fun _ => arranged_aggregationWrites) <|
    .cons (arranges_plain fun _ => arranged_resourceLanguageWrites) <|
    .cons (arranges_plain fun _ => arranged_topicWrites) <|
    .cons (fun _ _ _ hok => Except.ok.inj hok ▸ arranged_countryContribution) <|
    .cons (fun _ _ _ => arranged_locationContribution) <|
    .cons (fun _ _ _ => arranged_temporalContribution) <|
    .cons (arranges_checked fun _ _ => arranged_verticalWrites) <|
    .cons (arranges_checked fun _ _ => arranged_imageWrites) <|
    .cons (arranges_plain fun _ => arranged_distributionWrites) <|
    .cons (arranges_checked hmetadata) .nil

/-- Sections that take turns, one after the other. -/
theorem arranged_allWrites {source : Source} {parts : List Section} {all : List (List Template)}
    {progress : Progress} {given : List Contribution}
    (hparts : List.Forall₂ Section.Arranges parts all)
    (hcross : all.Pairwise fun first second =>
      ∀ t ∈ first, ∀ u ∈ second, Template.precedes rank "" t u = true)
    (hok : contributionsFrom source parts progress = .ok given) :
    Arranged all.flatten (allWrites given) := by
  -- By the sections along with their templates; the numbers that are reached play no part.
  induction hparts generalizing progress given with
  | nil =>
      obtain rfl := Except.ok.inj hok
      exact arranged_nil _
  | cons hpart hrest ih =>
      obtain ⟨hfirst, hcross⟩ := List.pairwise_cons.mp hcross
      obtain ⟨first, hcontribute, hok⟩ := bind_eq_ok_iff.mp hok
      obtain ⟨others, hothers, hok⟩ := bind_eq_ok_iff.mp hok
      obtain rfl := Except.ok.inj hok
      rw [List.flatten_cons, allWrites_cons]
      refine (hpart _ _ _ hcontribute).append_of_forall (ih hcross hothers) fun t ht u hu => ?_
      obtain ⟨second, hsecond, hu⟩ := List.mem_flatten.mp hu
      exact hfirst second hsecond t ht u hu

/-- The writes of some sections in a row stand between those of the sections before them and after
them. -/
theorem exists_allWrites_around {source : Source} {given : List Contribution} {n m : Nat}
    {parts : List Section} (hparts : sections = sections.take n ++ (parts ++ sections.drop m))
    (hok : contributions source = .ok given) :
    ∃ before own after progress, contributionsFrom source parts progress = .ok own ∧
      allWrites given = before ++ (allWrites own ++ after) ∧
      (∀ write ∈ before, write.template ∈ (sectionTemplates.take n).flatten) ∧
      ∀ write ∈ after, write.template ∈ (sectionTemplates.drop m).flatten := by
  rw [contributions, hparts] at hok
  obtain ⟨before, others, progress, hbefore, hothers, rfl⟩ := contributionsFrom_append hok
  obtain ⟨own, after, reached, hown, hafter, rfl⟩ := contributionsFrom_append hothers
  have harrangedBefore := arranged_allWrites
    (List.forall₂_take n sections_arranges_sectionTemplates)
    (precedes_of_sections.sublist (List.take_sublist _ _)) hbefore
  have harrangedAfter := arranged_allWrites
    (List.forall₂_drop m sections_arranges_sectionTemplates)
    (precedes_of_sections.sublist (List.drop_sublist _ _)) hafter
  exact ⟨allWrites before, own, allWrites after, progress, hown,
    by rw [allWrites_append, allWrites_append], harrangedBefore.mem, harrangedAfter.mem⟩

theorem exists_allWrites_split {source : Source} {given : List Contribution} {n : Nat}
    {part : Section} (hpart : sections[n]? = some part) (hok : contributions source = .ok given) :
    ∃ before own after progress, part.contribute source progress = .ok own ∧
      allWrites given = before ++ (own.writes ++ after) ∧
      (∀ write ∈ before, write.template ∈ (sectionTemplates.take n).flatten) ∧
      ∀ write ∈ after, write.template ∈ (sectionTemplates.drop (n + 1)).flatten := by
  have hsections : sections = sections.take n ++ ([part] ++ sections.drop (n + 1)) := by
    obtain ⟨hn, rfl⟩ := List.getElem?_eq_some_iff.mp hpart
    rw [List.singleton_append, ← List.drop_eq_getElem_cons hn, List.take_append_drop]
  obtain ⟨before, parts, after, progress, hparts, hall, hbefore, hafter⟩ :=
    exists_allWrites_around hsections hok
  obtain ⟨own, hown, hparts⟩ := bind_eq_ok_iff.mp hparts
  obtain rfl := Except.ok.inj hparts
  refine ⟨before, own, after, progress, hown, ?_, hbefore, hafter⟩
  rw [hall, allWrites_cons]
  simp [allWrites]

/-- The paths of different places are different. -/
theorem at_ne_of_precedes {v w : Write} (hv : v.template ∈ documentTemplates)
    (hw : w.template ∈ documentTemplates) (hvpos : 0 < v.index) (hwpos : 0 < w.index)
    (hvindex : v.index < Number.unwritableMagnitude)
    (hwindex : w.index < Number.unwritableMagnitude)
    (hprecedes : Precedes rank "" v.segments w.segments) :
    v.template.at v.index ≠ w.template.at w.index := by
  intro hpath
  have hv := Path.read_at (isProper_of_mem hv).1 hvpos hvindex
  have hw := Path.read_at (isProper_of_mem hw).1 hwpos hwindex
  rw [hpath, hw] at hv
  have hsegments : v.segments = w.segments := (Except.ok.inj hv).symm
  rw [hsegments] at hprecedes
  exact Document.not_precedes_self rank "" _ hprecedes

/-- The first section writes the namespaces, and the others write below the root. -/
theorem exists_allWrites_eq_append {source : Source} {given : List Contribution}
    (hok : contributions source = .ok given) :
    ∃ later, allWrites given = namespaceWrites source ++ later ∧
      ∀ write ∈ later, write.template ∈ elementTemplates := by
  have hsections : sections = .plain "namespaces" namespaceWrites :: sections.tail := rfl
  have hparts : List.Forall₂ Section.Arranges sections.tail sectionTemplates.tail := by
    have hall := sections_arranges_sectionTemplates
    rw [hsections] at hall
    exact (List.forall₂_cons.mp hall).2
  rw [contributions, hsections] at hok
  obtain ⟨first, hfirst, hok⟩ := bind_eq_ok_iff.mp hok
  obtain ⟨others, hothers, hok⟩ := bind_eq_ok_iff.mp hok
  obtain rfl := Except.ok.inj hfirst
  obtain rfl := Except.ok.inj hok
  refine ⟨allWrites others, allWrites_cons _ _, ?_⟩
  exact (arranged_allWrites hparts precedes_of_sections.tail hothers).mem

/-- The assignments are those of some writes, one for each, in order. -/
structure Composed (source : Source) (tracker : Assignments) (writes : List Write) : Prop where
  arranged : Arranged documentTemplates writes
  writable : ∀ write ∈ writes, write.index < Number.unwritableMagnitude
  entries : tracker.entries = writes.map fun write => (write.template.at write.index, write.value)
  namespacesFirst : ∃ later, writes = namespaceWrites source ++ later ∧
    ∀ write ∈ later, write.template ∈ elementTemplates

theorem composed_allWrites {source : Source} {given : List Contribution}
    {entries : List (String × String)} (hgiven : contributions source = .ok given)
    (hentries : (allWrites given).mapM Write.assignment = .ok entries) :
    Composed source (OrderedMap.ofList entries) (allWrites given) := by
  have harranged : Arranged documentTemplates (allWrites given) :=
    arranged_allWrites sections_arranges_sectionTemplates precedes_of_sections hgiven
  -- Each write has been given a path, so that its index has a text.
  have hindex : ∀ write ∈ allWrites given, write.index < Number.unwritableMagnitude := by
    intro write hwrite
    obtain ⟨entry, hentry⟩ := succeeds_mapM.mp ⟨entries, hentries⟩ write hwrite
    obtain ⟨path, hpath, -⟩ := bind_eq_ok_iff.mp hentry
    exact (Path.succeeds_fill.mp ⟨path, hpath⟩).2
  have hassignment : ∀ write ∈ allWrites given,
      write.assignment = .ok (write.template.at write.index, write.value) := by
    intro write hwrite
    rw [Write.assignment, Path.fill_text (isProper_of_mem (harranged.mem write hwrite)).1
      (harranged.positive write hwrite) (hindex write hwrite)]
    rfl
  have heq : entries = (allWrites given).map fun write =>
      (write.template.at write.index, write.value) := by
    have hall := mapM_eq_ok_iff.mpr
      (List.forall₂_map_right_iff.mpr (List.forall₂_same.mpr hassignment))
    exact Except.ok.inj (hentries.symm.trans hall)
  -- Paths are texts. They differ because they are read as different places.
  have hnodup : (entries.map Prod.fst).Nodup := by
    rw [heq, List.map_map, List.nodup_iff_pairwise_ne, List.pairwise_map]
    refine harranged.pairwise.imp_of_mem fun {v w} hv hw hprecedes => ?_
    exact at_ne_of_precedes (harranged.mem v hv) (harranged.mem w hw) (harranged.positive v hv)
      (harranged.positive w hw) (hindex v hv) (hindex w hw) hprecedes
  exact
    { arranged := harranged
      writable := hindex
      entries := (OrderedMap.entries_ofList_of_nodup hnodup).trans heq
      namespacesFirst := exists_allWrites_eq_append hgiven }

theorem exists_composed {source : Source} {tracker : Assignments}
    (hok : assignments source = .ok tracker) :
    ∃ given, contributions source = .ok given ∧ Composed source tracker (allWrites given) := by
  obtain ⟨given, entries, hgiven, hentries, rfl⟩ := assignments_eq_ok_iff.mp hok
  exact ⟨given, hgiven, composed_allWrites hgiven hentries⟩

end GeoMetadata.Profile
