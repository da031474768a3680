import GeoMetadata.Proofs.Document.Numbering
import GeoMetadata.Proofs.Profile.Document
import Mathlib.Data.List.Infix

/-!
# Indices and positions in the document of a record

The sections number what they write: dates, identifiers and temporal extents from 1 on, geographic
elements through the document, and most other things not at all.  Whatever an element is, the
writes that count it climb (`Numbered`), section by section and so through the document
(`numbered_allWrites`).  From there the siblings of a name carry the indices 1, 2, 3 and so on
(`siblings_numbered`).

A template leaves at most one index open, so that a write counts at most one element, and sets its
index there (`Write.count?`).  That the writes of a section climb is said for all elements at once,
and it comes about in one of four ways:

```text
single writes           all have the index 1               `numbered_of_one`
loops                   the rounds go on from 1            `numbered_flatMap_zipIdx`
geographic elements     they go on from the last one       `numbered_geographic`
resource constraints    they count another element         `numbered_resourceConstraintWrites`
```

The number that is kept for the geographic elements is 0 or that of an element which is there
(`Reached`), and so every section is asked about together with the writes before it.

The constraints of the resource are the exception, since their limitations have fixed indices.  All
their indices are known (`indices_resourceConstraints`): 1 for what is in a security block, if there
is any, and then 2 and 3.

In the tree an element has the indices that the places have there, be they set by a write or fixed
in its template (`index_of_indexAt?`).  The fixed ones are 1 and do not keep the others from
climbing.
-/

namespace GeoMetadata.Profile

open Document (Trail elements indexAt? seenFrom)
open GeoMetadata.Path (Template)

/-- An element whose index templates leave open: the trail of its parent, and its name. -/
abbrev Counter := Trail × String

/-- The geographic elements of the extent. -/
def geographicElements : Counter :=
  ([("MD_Metadata", 1), ("identificationInfo", 1), ("MD_DataIdentification", 1), ("extent", 1),
    ("EX_Extent", 1)], "geographicElement")

/-- The constraints of the resource. -/
def resourceConstraints : Counter :=
  ([("MD_Metadata", 1), ("identificationInfo", 1), ("MD_DataIdentification", 1)],
    "resourceConstraints")

/-- The index of the write, if it counts an element. -/
def Write.count? (counter : Counter) (write : Write) : Option Nat :=
  if write.template.counted? = some counter then some write.index else none

/-- The indices of an element in some writes. -/
def indices (counter : Counter) (writes : List Write) : List Nat :=
  writes.filterMap (Write.count? counter)

/-- The writes go on counting an element after earlier ones. -/
def Numbered (counter : Counter) (earlier writes : List Write) : Prop :=
  Climbs (indices counter earlier) (indices counter writes)

variable {counter : Counter} {earlier writes before after : List Write} {template : Template}
  {n : Nat}

/-! ## Putting writes together -/

theorem count?_eq_some_iff {write : Write} :
    write.count? counter = some n ↔
      write.template.counted? = some counter ∧ write.index = n := by
  simp [Write.count?]

theorem mem_indices :
    n ∈ indices counter writes ↔
      ∃ write ∈ writes, write.template.counted? = some counter ∧ write.index = n := by
  simp only [indices, List.mem_filterMap, count?_eq_some_iff]

theorem indices_append (counter : Counter) (before after : List Write) :
    indices counter (before ++ after) = indices counter before ++ indices counter after :=
  List.filterMap_append

theorem indices_eq_nil (h : ∀ write ∈ writes, write.template.counted? ≠ some counter) :
    indices counter writes = [] := by
  refine List.eq_nil_iff_forall_not_mem.mpr fun n hn => ?_
  obtain ⟨write, hwrite, hcounted, -⟩ := mem_indices.mp hn
  exact h write hwrite hcounted

theorem numbered_nil (counter : Counter) (earlier : List Write) : Numbered counter earlier [] :=
  trivial

theorem Numbered.append (hbefore : Numbered counter earlier before)
    (hafter : Numbered counter (earlier ++ before) after) :
    Numbered counter earlier (before ++ after) := by
  rw [Numbered, indices_append] at hafter
  rw [Numbered, indices_append, climbs_append]
  exact ⟨hbefore, hafter⟩

/-- Writes with one index, which may come next if they count the element at all. -/
theorem numbered_of_forall_eq (hindex : ∀ write ∈ writes, write.index = n)
    (hnext : ∀ write ∈ writes, write.template.counted? = some counter →
      n = 1 ∨ ∃ m ∈ indices counter earlier, m + 1 = n) :
    Numbered counter earlier writes := by
  by_cases hnone : ∀ write ∈ writes, write.template.counted? ≠ some counter
  · rw [Numbered, indices_eq_nil hnone]
    trivial
  · push Not at hnone
    obtain ⟨write, hwrite, hcounted⟩ := hnone
    refine climbs_of_forall_eq (hnext write hwrite hcounted) fun m hm => ?_
    obtain ⟨other, hother, -, rfl⟩ := mem_indices.mp hm
    exact hindex other hother

theorem numbered_of_one (hindex : ∀ write ∈ writes, write.index = 1) :
    Numbered counter earlier writes :=
  numbered_of_forall_eq hindex fun _ _ _ => .inl rfl

/-- The rounds of a loop, which all count the same element and are numbered one after the other. -/
theorem numbered_flatMap {α : Type} {items : List α} {number : α → Nat} {round : α → List Write}
    {counted : Option Counter} {start count : Nat}
    (hnumber : items.map number = List.range' start count)
    (hindex : ∀ item ∈ items, ∀ write ∈ round item, write.index = number item)
    (hcounted : ∀ item ∈ items, ∀ write ∈ round item, write.template.counted? = counted)
    (hround : ∀ item ∈ items, round item ≠ [])
    (hstart : counted = some counter →
      start = 1 ∨ ∃ m ∈ indices counter earlier, m + 1 = start) :
    Numbered counter earlier (items.flatMap round) := by
  -- By the rounds: those that are done join the earlier writes, and the next number follows on
  -- theirs.
  induction items generalizing earlier start count with
  | nil => exact numbered_nil _ _
  | cons item rest ih =>
      rw [List.forall_mem_cons] at hindex hcounted hround
      obtain ⟨hindex, hindexRest⟩ := hindex
      obtain ⟨hcounted, hcountedRest⟩ := hcounted
      obtain ⟨hround, hroundRest⟩ := hround
      cases count with
      | zero => nomatch hnumber
      | succ count =>
          obtain ⟨hitem, hrest⟩ := List.cons.inj hnumber
          rw [List.flatMap_cons]
          refine Numbered.append (numbered_of_forall_eq (hitem ▸ hindex) fun write hwrite hcount =>
            hstart ((hcounted write hwrite).symm.trans hcount)) ?_
          refine ih hrest hindexRest hcountedRest hroundRest fun hcount => .inr ⟨start, ?_, rfl⟩
          -- The round is not empty, so that its number is there for the next.
          obtain ⟨write, hwrite⟩ := List.exists_mem_of_ne_nil _ hround
          refine mem_indices.mpr ⟨write, List.mem_append_right _ hwrite, ?_, ?_⟩
          · rw [hcounted write hwrite, hcount]
          · rw [hindex write hwrite, hitem]

/-- The rounds of a loop that counts from 1. -/
theorem numbered_flatMap_zipIdx {α : Type} {items : List α} {round : α → Nat → List Write}
    {counted : Option Counter}
    (hindex : ∀ item index, ∀ write ∈ round item index, write.index = index)
    (hcounted : ∀ item index, ∀ write ∈ round item index, write.template.counted? = counted)
    (hround : ∀ item index, round item index ≠ []) :
    Numbered counter earlier ((items.zipIdx 1).flatMap fun entry => round entry.1 entry.2) :=
  numbered_flatMap (map_snd_zipIdx items 1) (fun entry _ => hindex entry.1 entry.2)
    (fun entry _ => hcounted entry.1 entry.2) (fun entry _ => hround entry.1 entry.2)
    fun _ => .inl rfl

theorem numbered_eachFrom {start : Nat} {values : List String}
    (hstart : template.counted? = some counter →
      start = 1 ∨ ∃ m ∈ indices counter earlier, m + 1 = start) :
    Numbered counter earlier (eachFrom start template values) := by
  rw [eachFrom, ← List.flatMap_singleton' ((values.zipIdx start).map _), List.flatMap_map]
  exact numbered_flatMap (map_snd_zipIdx values start) (by simp) (by simp) (by simp) hstart

theorem numbered_each (template : Template) (values : List String) :
    Numbered counter earlier (each template values) :=
  numbered_eachFrom fun _ => .inl rfl

theorem index_eq_one_of_mem_optional {value : Option String} :
    ∀ write ∈ optional template value, write.index = 1 := by
  cases value <;> simp [optional, Write.only]

theorem numbered_optional (template : Template) (value : Option String) :
    Numbered counter earlier (optional template value) :=
  numbered_of_one index_eq_one_of_mem_optional

theorem numbered_codeWrites (places : Layout.CodePlaces) (code : ClassificationCode) :
    Numbered counter earlier (codeWrites places 1 code) :=
  numbered_of_one (by simp [codeWrites])

theorem numbered_identifierWrites (places : Layout.IdentifierPlaces) (code codeSpace : String) :
    Numbered counter earlier (identifierWrites places 1 code codeSpace) :=
  numbered_of_one (by simp [identifierWrites])

/-! ## The sections

One lemma for each section, or for the writes that several share.  The counter and the earlier
writes are left open in all of them, since a section need not know who asks: what it numbers from 1
on may follow on anything. -/

/-- The geographic elements are written up to the number that is kept of them. -/
def Reached (earlier : List Write) (progress : Progress) : Prop :=
  progress.geographic = 0 ∨ progress.geographic ∈ indices geographicElements earlier

theorem Reached.append {progress : Progress} (h : Reached earlier progress)
    (writes : List Write) : Reached (earlier ++ writes) progress :=
  h.imp_right fun hmem => by
    rw [indices_append]
    exact List.mem_append_left _ hmem

/-- The next number may be used for a geographic element. -/
theorem Reached.next {progress : Progress} (h : Reached earlier progress)
    (hcounter : some geographicElements = some counter) :
    progress.geographic + 1 = 1 ∨ ∃ m ∈ indices counter earlier, m + 1 = progress.geographic + 1 := by
  obtain rfl := Option.some.inj hcounter
  exact h.imp (fun hzero => by rw [hzero]) fun hmem => ⟨_, hmem, rfl⟩

section Sections

variable {source : Source} {progress : Progress} {given : Contribution}

theorem numbered_partyWrites (places : Layout.PartyPlaces) (party : Attribute.Party)
    (role label : String) (record : Record) :
    Numbered counter earlier (partyWrites places party role label record) :=
  ((((numbered_optional _ _).append (numbered_each _ _)).append (numbered_each _ _)).append
    (numbered_each _ _)).append (numbered_codeWrites _ _)

theorem numbered_referenceSystemWrites :
    Numbered counter earlier (referenceSystemWrites source) :=
  (numbered_each _ _).append (numbered_each _ _)

/-- The rounds of the dates count dates, and those of the identifiers count identifiers. -/
theorem numbered_citationWrites (hok : citationWrites source = .ok writes) :
    Numbered counter earlier writes := by
  obtain ⟨dates, -, hok⟩ := bind_eq_ok_iff.mp hok
  obtain ⟨edition, -, hok⟩ := bind_eq_ok_iff.mp hok
  obtain rfl := Except.ok.inj hok
  have hdate (date : DateKind × String) (index : Nat) :
      ∀ write ∈ citationDateWrites index date.1 date.2,
        write.template.counted? = Layout.citationDateValue.counted? := by
    simp only [citationDateWrites, List.forall_mem_cons]
    exact ⟨trivial, rfl, rfl, rfl, by simp⟩
  have hidentifier (code : String × String) (index : Nat) :
      ∀ write ∈ identifierWrites Layout.citationIdentifier index code.1 code.2,
        write.template.counted? = Layout.citationIdentifier.code.counted? := by
    simp only [identifierWrites, List.forall_mem_cons]
    exact ⟨trivial, rfl, by simp⟩
  have hdates (earlier : List Write) : Numbered counter earlier
      ((dates.zipIdx 1).flatMap fun entry => citationDateWrites entry.2 entry.1.1 entry.1.2) :=
    numbered_flatMap_zipIdx (by simp [citationDateWrites]) hdate (by simp [citationDateWrites])
  have hidentifiers (earlier : List Write) : Numbered counter earlier
      (((citationIdentifiers source).zipIdx 1).flatMap fun entry =>
        identifierWrites Layout.citationIdentifier entry.2 entry.1.1 entry.1.2) :=
    numbered_flatMap_zipIdx (by simp [identifierWrites]) hidentifier (by simp [identifierWrites])
  have htitle : Numbered counter earlier
      [.only Layout.title ((source.record.string? Attribute.title).getD "")] :=
    numbered_of_one (by simp [Write.only])
  exact ((htitle.append (hdates _)).append (numbered_optional _ _)).append (hidentifiers _)

theorem numbered_statusWrites : Numbered counter earlier (statusWrites source) := by
  unfold statusWrites
  split
  · exact numbered_nil _ _
  · exact numbered_of_one (by simp [Write.only])

theorem numbered_keywordWrites : Numbered counter earlier (keywordWrites source) := by
  unfold keywordWrites
  split
  · exact numbered_of_one (by simp [Write.only])
  · exact numbered_each _ _

theorem numbered_topicWrites : Numbered counter earlier (topicWrites source) := by
  unfold topicWrites
  split
  · exact numbered_of_one (by simp [Write.only])
  · exact numbered_each _ _

theorem index_eq_one_of_mem_securityWrites {places : Layout.SecurityPlaces}
    {protection : Attribute.Protection} (hok : securityWrites places protection source = .ok writes) :
    ∀ write ∈ writes, write.index = 1 := by
  obtain ⟨caveat, -, hok⟩ := bind_eq_ok_iff.mp hok
  obtain rfl := Except.ok.inj hok
  have hcode (code : Option ClassificationCode) (places : Layout.CodePlaces) :
      ∀ write ∈ code.elim [] (codeWrites places 1), write.index = 1 := by
    cases code <;> simp [codeWrites]
  rw [List.forall_mem_append, List.forall_mem_append]
  exact ⟨⟨hcode _ _, hcode _ _⟩, index_eq_one_of_mem_optional⟩

/-- All these writes count the constraints of the resource, and so no other element. -/
theorem numbered_resourceConstraintWrites (hcounter : counter ≠ resourceConstraints)
    (hok : resourceConstraintWrites source = .ok writes) : Numbered counter earlier writes := by
  have hcounted : ∀ template ∈ securityTemplates Layout.resourceSecurity
      ++ [Layout.useLimitation, Layout.otherConstraints],
        template.counted? = some resourceConstraints := by decide +kernel
  -- The limitations may begin at 2, which is allowed because they count another element.
  have hnone : indices counter writes = [] := by
    refine indices_eq_nil fun write hwrite hcount => hcounter ?_
    rw [hcounted _ ((arranged_resourceConstraintWrites hok).mem write hwrite)] at hcount
    exact (Option.some.inj hcount).symm
  rw [Numbered, hnone]
  trivial

theorem numbered_aggregationWrites : Numbered counter earlier (aggregationWrites source) := by
  unfold aggregationWrites
  split
  · exact numbered_nil _ _
  · exact (numbered_identifierWrites _ _ _).append (numbered_codeWrites _ _)

theorem numbered_resourceLanguageWrites :
    Numbered counter earlier (resourceLanguageWrites source) :=
  ((numbered_each _ _).append (numbered_each _ _)).append (numbered_each _ _)

/-- The countries are geographic elements after those that are there. -/
theorem numbered_countryContribution (hreached : Reached earlier progress) :
    Numbered counter earlier (countryContribution source progress).writes ∧
      Reached (earlier ++ (countryContribution source progress).writes)
        (countryContribution source progress).progress := by
  let countries := source.record.strings Attribute.countryCode
  let codes := eachFrom (progress.geographic + 1) Layout.country.code countries
  have hcodes : Numbered counter earlier codes := numbered_eachFrom hreached.next
  refine ⟨hcodes.append (numbered_eachFrom (hreached.append codes).next), ?_⟩
  -- The number that is kept is that of the last country, if there is one.
  rcases List.eq_nil_or_concat' countries with hnone | ⟨others, last, hsome⟩
  · have hwrites : (countryContribution source progress).writes = [] := by
      show codes ++ eachFrom _ _ (countries.map _) = []
      simp only [codes, hnone]
      rfl
    have hprogress : (countryContribution source progress).progress = progress := by
      show { progress with geographic := progress.geographic + countries.length } = progress
      rw [hnone]
      rfl
    rw [hwrites, hprogress, List.append_nil]
    exact hreached
  · refine .inr (mem_indices.mpr ⟨⟨Layout.country.code, progress.geographic + countries.length, last⟩,
      List.mem_append_right _ (List.mem_append_left _ ?_), rfl, rfl⟩)
    show _ ∈ eachFrom (progress.geographic + 1) Layout.country.code countries
    rw [hsome, eachFrom, List.zipIdx_append, List.map_append, List.length_append]
    refine List.mem_append_right _ (List.mem_singleton.mpr ?_)
    rw [List.length_singleton, Nat.add_right_comm]
    rfl

/-- Writes to a geographic element may have the index of the next one. -/
theorem numbered_geographic (hreached : Reached earlier progress)
    (hindex : ∀ write ∈ writes, write.index = progress.geographic + 1)
    (hcounted : ∀ write ∈ writes, write.template.counted? = some geographicElements) :
    Numbered counter earlier writes :=
  numbered_of_forall_eq hindex fun write hwrite hcount =>
    hreached.next ((hcounted write hwrite).symm.trans hcount)

theorem reached_of_mem {write : Write} (hwrite : write ∈ writes)
    (hcounted : write.template.counted? = some geographicElements)
    (hindex : write.index = progress.geographic) : Reached writes progress :=
  .inr (mem_indices.mpr ⟨write, hwrite, hcounted, hindex⟩)

/-- A polygon is the next geographic element, and its box the one after it. -/
theorem numbered_boundingBoxContribution {box : BoundingBox} (hreached : Reached earlier progress) :
    Numbered counter earlier (boundingBoxContribution source progress box).writes ∧
      Reached (earlier ++ (boundingBoxContribution source progress box).writes)
        (boundingBoxContribution source progress box).progress := by
  let index := progress.geographic + 1
  let polygon : List Write :=
    [⟨Layout.polygonId, index, source.gmlId (progress.ids + 1)⟩,
      ⟨Layout.polygonSrsName, index, source.settings.gmlSrsName⟩,
      ⟨Layout.polygonPositions, index, box.positionList⟩]
  have hpolygon : Numbered counter earlier polygon := by
    refine numbered_geographic hreached (by simp [polygon, index]) ?_
    simp only [polygon, List.forall_mem_cons]
    exact ⟨rfl, rfl, rfl, by simp⟩
  -- Once the polygon is written, its number is the one reached.
  have hreached (ids : Nat) : Reached (earlier ++ polygon) ⟨index, ids⟩ :=
    reached_of_mem (List.mem_append_right _ List.mem_cons_self) rfl rfl
  unfold boundingBoxContribution
  split
  · exact ⟨hpolygon, hreached _⟩
  · rename_i bounds hbounds
    obtain ⟨west, east, south, north, rfl⟩ := exists_bounds?_eq hbounds
    have hbox : Numbered counter (earlier ++ polygon)
        (boundWrites (index + 1) [west, east, south, north]) := by
      refine numbered_geographic (hreached 0) (by simp [boundWrites, Layout.bounds]) ?_
      simp only [boundWrites, Layout.bounds, List.map_cons, List.map_nil, List.zip_cons_cons,
        List.zip_nil_left, List.forall_mem_cons]
      exact ⟨rfl, rfl, rfl, rfl, by simp⟩
    refine ⟨hpolygon.append hbox, reached_of_mem (List.mem_append_right _
      (List.mem_append_right _ List.mem_cons_self)) rfl rfl⟩

theorem numbered_locationContribution (hreached : Reached earlier progress)
    (hok : locationContribution source progress = .ok given) :
    Numbered counter earlier given.writes ∧ Reached (earlier ++ given.writes) given.progress := by
  unfold locationContribution at hok
  split at hok
  · obtain rfl := Except.ok.inj hok
    -- An empty box has the next number without taking it, and no later section uses it.
    refine ⟨numbered_geographic hreached (by simp [emptyBoundWrites]) ?_, hreached.append _⟩
    simp only [emptyBoundWrites, Layout.bounds, List.map_cons, List.map_nil, List.forall_mem_cons]
    exact ⟨rfl, rfl, rfl, rfl, by simp⟩
  · split at hok
    · obtain rfl := Except.ok.inj hok
      exact numbered_boundingBoxContribution hreached
    · obtain rfl := Except.ok.inj hok
      exact ⟨numbered_nil _ _, hreached.append _⟩
    · cases hok

theorem numbered_temporalContribution (hreached : Reached earlier progress)
    (hok : temporalContribution source progress = .ok given) :
    Numbered counter earlier given.writes ∧ Reached (earlier ++ given.writes) given.progress := by
  obtain ⟨starts, -, hok⟩ := bind_eq_ok_iff.mp hok
  obtain ⟨ends, -, hok⟩ := bind_eq_ok_iff.mp hok
  obtain rfl := Except.ok.inj hok
  have hindex (gmlId : String) (extent : TemporalExtent) :
      ∀ write ∈ extentWrites gmlId extent, write.index = extent.index := by
    unfold extentWrites
    split <;> simp
  -- Instants and periods count the same element, so that their rounds can be mixed.
  have hcounted (gmlId : String) (extent : TemporalExtent) :
      ∀ write ∈ extentWrites gmlId extent,
        write.template.counted? = Layout.instantId.counted? := by
    unfold extentWrites
    split
    · simp only [List.forall_mem_cons]
      exact ⟨trivial, rfl, by simp⟩
    · simp only [List.forall_mem_cons]
      exact ⟨rfl, rfl, rfl, by simp⟩
  have hround (gmlId : String) (extent : TemporalExtent) : extentWrites gmlId extent ≠ [] := by
    unfold extentWrites
    split <;> simp
  refine ⟨?_, hreached.append _⟩
  exact numbered_flatMap (map_index_pairExtents starts ends) (fun extent _ => hindex _ extent)
    (fun extent _ => hcounted _ extent) (fun extent _ => hround _ extent) fun _ => .inl rfl

theorem numbered_verticalWrites (hok : verticalWrites source = .ok writes) :
    Numbered counter earlier writes := by
  unfold verticalWrites at hok
  split at hok
  · nomatch hok
  · split at hok
    · obtain rfl := Except.ok.inj hok
      exact numbered_of_one (by simp [Write.only])
    · obtain rfl := Except.ok.inj hok
      exact numbered_nil _ _

theorem numbered_imageWrites (hok : imageWrites source = .ok writes) :
    Numbered counter earlier writes := by
  have hcomment : ∀ write ∈ commentWrites source.record, write.index = 1 := by
    unfold commentWrites
    split <;> simp [Write.only]
  have hdescription (described : Bool) : Numbered counter earlier
      (if described then commentWrites source.record ++ contentTypeWrites else []) := by
    cases described with
    | false => exact numbered_nil _ _
    | true =>
        have hcontent : ∀ write ∈ contentTypeWrites, write.index = 1 := by
          simp [contentTypeWrites, Write.only]
        exact (numbered_of_one hcomment).append (numbered_of_one hcontent)
  rw [imageWrites] at hok
  cases hratings : source.record.values Attribute.imageryRating with
  | nil =>
      rw [hratings] at hok
      obtain rfl := Except.ok.inj hok
      exact ((hdescription _).append (numbered_nil _ _)).append (numbered_optional _ _)
  | cons value rest =>
      rw [hratings] at hok
      cases htext : value.display with
      | error fault =>
          simp only [htext] at hok
          cases hok
      | ok text =>
          simp only [htext] at hok
          obtain rfl := Except.ok.inj hok
          exact ((hdescription _).append (numbered_identifierWrites _ _ _)).append
            (numbered_optional _ _)

theorem numbered_distributionWrites : Numbered counter earlier (distributionWrites source) :=
  ((numbered_optional _ _).append (numbered_optional _ _)).append (numbered_optional _ _)

end Sections

/-! ## The document -/

/-- What a section gives goes on counting an element, and it keeps the number of the geographic
elements. -/
def Section.Numbers (counter : Counter) (part : Section) : Prop :=
  ∀ source progress given earlier, part.contribute source progress = .ok given →
    Reached earlier progress →
    Numbered counter earlier given.writes ∧ Reached (earlier ++ given.writes) given.progress

theorem numbers_plain {name : String} {writes : Source → List Write}
    (h : ∀ source earlier, Numbered counter earlier (writes source)) :
    (Section.plain name writes).Numbers counter := by
  intro source progress given earlier hok hreached
  obtain rfl := Except.ok.inj hok
  exact ⟨h source earlier, hreached.append _⟩

theorem numbers_checked {name : String} {writes : Source → Except ConversionFault (List Write)}
    (h : ∀ source given earlier, writes source = .ok given → Numbered counter earlier given) :
    (Section.checked name writes).Numbers counter := by
  intro source progress given earlier hok hreached
  obtain ⟨found, hfound, rfl⟩ := map_eq_ok_iff.mp hok
  exact ⟨h source found earlier hfound, hreached.append _⟩

theorem numbers_single {name : String} {writes : Source → List Write}
    (h : ∀ source, ∀ write ∈ writes source, write.index = 1) :
    (Section.plain name writes).Numbers counter :=
  numbers_plain fun source _ => numbered_of_one (h source)

theorem sections_numbers (hcounter : counter ≠ resourceConstraints) :
    ∀ part ∈ sections, part.Numbers counter := by
  have hstamp (source : Source) (given earlier : List Write)
      (hok : dateStampWrites source = .ok given) : Numbered counter earlier given := by
    obtain ⟨text, -, hok⟩ := bind_eq_ok_iff.mp hok
    obtain rfl := Except.ok.inj hok
    exact numbered_of_one (by simp [Write.only])
  have hmetadata (source : Source) (given earlier : List Write)
      (hok : metadataConstraintWrites source = .ok given) : Numbered counter earlier given :=
    numbered_of_one (index_eq_one_of_mem_securityWrites hok)
  simp only [sections, List.forall_mem_cons]
  exact
    ⟨numbers_single fun _ => List.forall_mem_map.mpr fun _ _ => rfl,
      numbers_single (by simp [fileIdentifierWrites, Write.only]),
      numbers_single (by simp [languageWrites, codeWrites]),
      numbers_single (by simp [characterSetWrites, codeWrites]),
      numbers_single (by simp [hierarchyLevelWrites, Write.only]),
      numbers_plain fun _ _ => numbered_partyWrites _ _ _ _ _,
      numbers_checked hstamp,
      numbers_single (by simp [standardWrites, Write.only]),
      numbers_plain fun _ _ => numbered_referenceSystemWrites,
      numbers_checked fun _ _ _ => numbered_citationWrites,
      numbers_single (by simp [abstractWrites, Write.only]),
      numbers_plain fun _ _ => numbered_statusWrites,
      numbers_plain fun _ _ => numbered_partyWrites _ _ _ _ _,
      numbers_plain fun _ _ => numbered_keywordWrites,
      numbers_checked fun _ _ _ => numbered_resourceConstraintWrites hcounter,
      numbers_plain fun _ _ => numbered_aggregationWrites,
      numbers_plain fun _ _ => numbered_resourceLanguageWrites,
      numbers_plain fun _ _ => numbered_topicWrites,
      fun _ _ _ _ hok hreached => Except.ok.inj hok ▸ numbered_countryContribution hreached,
      fun _ _ _ _ hok hreached => numbered_locationContribution hreached hok,
      fun _ _ _ _ hok hreached => numbered_temporalContribution hreached hok,
      numbers_checked fun _ _ _ => numbered_verticalWrites,
      numbers_checked fun _ _ _ => numbered_imageWrites,
      numbers_plain fun _ _ => numbered_distributionWrites,
      numbers_checked hmetadata,
      by simp⟩

/-- Sections that go on counting an element, one after the other. -/
theorem numbered_allWrites {source : Source} {parts : List Section} {progress : Progress}
    {given : List Contribution} (hparts : ∀ part ∈ parts, part.Numbers counter)
    (hok : contributionsFrom source parts progress = .ok given)
    (hreached : Reached earlier progress) : Numbered counter earlier (allWrites given) := by
  -- By the sections, with the earlier writes and the number reached growing along.
  induction parts generalizing progress given earlier with
  | nil =>
      obtain rfl := Except.ok.inj hok
      exact numbered_nil _ _
  | cons part rest ih =>
      obtain ⟨hpart, hrest⟩ := List.forall_mem_cons.mp hparts
      obtain ⟨first, hfirst, hok⟩ := bind_eq_ok_iff.mp hok
      obtain ⟨others, hothers, hok⟩ := bind_eq_ok_iff.mp hok
      obtain rfl := Except.ok.inj hok
      obtain ⟨hwrites, hreached⟩ := hpart _ _ _ _ hfirst hreached
      rw [allWrites_cons]
      exact hwrites.append (ih hrest hothers hreached)

/-! ## The constraints of the resource

Here a list of indices is computed and not climbed: the sections before and after have none of these
indices, so that what is left are those of the one section. -/

/-- There is a classification of the resource, one of its originator or a caveat to be written. -/
def Source.IsSecured (source : Source) : Prop :=
  (Classification.government? Attribute.resourceProtection.classification source.mapping
      source.record).isSome = true ∨
    (Classification.fine? Attribute.resourceProtection.originatorClassification
      source.record).isSome = true ∨
    ∃ text, caveat? (source.record.value? Attribute.resourceProtection.dissemination)
      (source.record.values Attribute.resourceProtection.releasability) = .ok (some text)

theorem securityWrites_eq_nil_iff {source : Source} {places : Layout.SecurityPlaces}
    (hok : securityWrites places Attribute.resourceProtection source = .ok writes) :
    writes = [] ↔ ¬ source.IsSecured := by
  obtain ⟨caveat, hcaveat, hok⟩ := bind_eq_ok_iff.mp hok
  obtain rfl := Except.ok.inj hok
  have hcode (code : Option ClassificationCode) (places : Layout.CodePlaces) :
      code.elim [] (codeWrites places 1) = [] ↔ ¬ code.isSome = true := by
    cases code <;> simp [codeWrites]
  have htext : optional places.caveat caveat = [] ↔ ¬ ∃ text, caveat = some text := by
    cases caveat <;> simp [optional]
  rw [List.append_eq_nil_iff, List.append_eq_nil_iff, hcode, hcode, htext, Source.IsSecured,
    hcaveat]
  simp only [Except.ok.injEq, not_or, and_assoc]

/-- Only the section on the constraints of the resource counts them: a security block has the index
1, and the limitations have fixed indices. -/
theorem indices_resourceConstraints {source : Source} {given : List Contribution}
    (hok : contributions source = .ok given) :
    ∃ security,
      securityWrites Layout.resourceSecurity Attribute.resourceProtection source = .ok security ∧
      indices resourceConstraints (allWrites given) = security.map Write.index ++ [2, 3] := by
  have helsewhere : ∀ template ∈ (sectionTemplates.take 14).flatten
      ++ (sectionTemplates.drop 15).flatten, template.counted? ≠ some resourceConstraints := by
    decide +kernel
  rw [List.forall_mem_append] at helsewhere
  have hsection : sections[14]? = some (.checked "resource_constraints" resourceConstraintWrites) :=
    rfl
  obtain ⟨before, own, after, progress, hown, hall, hbefore, hafter⟩ :=
    exists_allWrites_split hsection hok
  obtain ⟨writes, hwrites, rfl⟩ := map_eq_ok_iff.mp hown
  obtain ⟨security, hsecurity, hwrites⟩ := bind_eq_ok_iff.mp hwrites
  obtain rfl := Except.ok.inj hwrites
  have hnoneBefore : indices resourceConstraints before = [] :=
    indices_eq_nil fun write hwrite => helsewhere.1 _ (hbefore write hwrite)
  have hnoneAfter : indices resourceConstraints after = [] :=
    indices_eq_nil fun write hwrite => helsewhere.2 _ (hafter write hwrite)
  have hsecurityCounted : ∀ write ∈ security,
      write.template.counted? = some resourceConstraints := by
    have hcounted : ∀ template ∈ securityTemplates Layout.resourceSecurity,
        template.counted? = some resourceConstraints := by decide +kernel
    have harranged := arranged_securityWrites (by decide) hsecurity
    exact fun write hwrite => hcounted _ (harranged.mem write hwrite)
  have hsecurityIndices : indices resourceConstraints security = security.map Write.index := by
    rw [indices, ← List.filterMap_eq_map]
    refine List.filterMap_congr fun write hwrite => ?_
    exact count?_eq_some_iff.mpr ⟨hsecurityCounted write hwrite, rfl⟩
  refine ⟨security, hsecurity, ?_⟩
  calc indices resourceConstraints (allWrites given)
    _ = indices resourceConstraints before
          ++ (indices resourceConstraints security ++ [2, 3]
          ++ indices resourceConstraints after) := by
        rw [hall, indices_append, indices_append, indices_append]
        rfl
    _ = security.map Write.index ++ [2, 3] := by
        rw [hnoneBefore, hnoneAfter, hsecurityIndices, List.nil_append, List.append_nil]

/-- The same index once is followed by the indices of the limitations. -/
theorem eraseDups_securityIndices {security : List Write}
    (hindex : ∀ write ∈ security, write.index = 1) :
    (security.map Write.index ++ [2, 3]).eraseDups = if security = [] then [2, 3] else [1, 2, 3] := by
  cases security with
  | nil => rfl
  | cons first rest =>
      obtain ⟨hfirst, hrest⟩ := List.forall_mem_cons.mp hindex
      have hnone : (rest.map Write.index).filter (fun n => !n == 1) = [] := by
        rw [List.filter_eq_nil_iff, List.forall_mem_map]
        intro write hwrite
        simp [hrest write hwrite]
      rw [if_neg (List.cons_ne_nil _ _), List.map_cons, List.cons_append, hfirst,
        List.eraseDups_cons, List.filter_append, hnone]
      rfl

/-! ## The tree

From the indices of the writes to those of the elements.  An element is told by the trail of its
parent and its name, and the indices of all places there, each once, are the indices of its
siblings. -/

theorem countsOnce_of_mem (hmem : template ∈ documentTemplates) : template.countsOnce = true := by
  have hall : ∀ template ∈ documentTemplates, template.countsOnce = true := by decide +kernel
  exact hall template hmem

/-- The place of a write has an index at an element if it counts it, and may else lead through the
first of its name. -/
theorem index_of_indexAt? {write : Write} (hmem : write.template ∈ documentTemplates)
    (hat : indexAt? counter.2 counter.1 write.segments = some n) :
    write.count? counter = some n ∨ n = 1 ∧ .single counter.2 ∈ write.template :=
  (Template.indexAt?_segments (countsOnce_of_mem hmem) hat).imp_left fun ⟨hcounted, hn⟩ =>
    count?_eq_some_iff.mpr ⟨hcounted, hn.symm⟩

theorem indexAt?_of_count? {write : Write} (hcount : write.count? counter = some n) :
    indexAt? counter.2 counter.1 write.segments = some n := by
  obtain ⟨hcounted, rfl⟩ := count?_eq_some_iff.mp hcount
  exact Template.indexAt?_segments_of_counted? hcounted write.index

/-- If no place leads to an element through a fixed index, then its indices are those of the writes
that count it. -/
theorem filterMap_indexAt?_eq_indices (hmem : ∀ write ∈ writes, write.template ∈ documentTemplates)
    (hopen : ∀ write ∈ writes, .single counter.2 ∉ write.template) :
    (writes.filterMap fun write => indexAt? counter.2 counter.1 write.segments) =
      indices counter writes := by
  refine List.filterMap_congr fun write hwrite => Option.ext fun n => ?_
  constructor
  · intro hat
    exact (index_of_indexAt? (hmem write hwrite) hat).resolve_right fun h => hopen write hwrite h.2
  · exact indexAt?_of_count?

/-- The indices that the placements have at an element are those that the writes have there. -/
theorem filterMap_indexAt?_placement (hmem : ∀ write ∈ writes, write.template ∈ documentTemplates)
    (trail : Trail) (name : String) :
    ((writes.map Write.placement).filterMap fun p => indexAt? name trail p.1) =
      writes.filterMap fun write => indexAt? name ((Layout.rootName, 1) :: trail) write.segments := by
  rw [List.filterMap_map]
  refine List.filterMap_congr fun write hwrite => ?_
  rw [segments_eq_cons (hmem write hwrite), indexAt?, if_pos rfl]
  rfl

/-- The way to an element is the beginning of a template that leads through it. -/
theorem exists_prefix_of_reached {trail : Trail} {p : Document.Placement}
    (hmem : ∀ write ∈ writes, write.template ∈ documentTemplates)
    (hp : p ∈ writes.map Write.placement) (hthrough : elements trail <+: p.1) :
    ∃ write ∈ writes, ∃ before : Template, before <+: write.template ∧
      elements ((Layout.rootName, 1) :: trail) = before.segments write.index ∧
      before.getLast?.map Path.TemplateSegment.name =
        some (Document.endName Layout.rootName trail) := by
  obtain ⟨write, hwrite, rfl⟩ := List.mem_map.mp hp
  have hwhole : elements ((Layout.rootName, 1) :: trail) <+: write.segments := by
    rw [segments_eq_cons (hmem write hwrite)]
    exact List.cons_prefix_cons.mpr ⟨rfl, hthrough⟩
  rw [Write.segments, Template.segments_eq_map] at hwhole
  obtain ⟨before, hbefore, heq⟩ := List.prefix_map_iff.mp hwhole
  refine ⟨write, hwrite, before, hbefore, by rw [heq, Template.segments_eq_map], ?_⟩
  -- The way ends in an element, and so does the beginning of the template that leads there.
  have hend : ∃ index, (elements ((Layout.rootName, 1) :: trail)).getLast? =
      some (.element (Document.endName Layout.rootName trail) index) := by
    rcases List.eq_nil_or_concat' trail with rfl | ⟨front, ⟨name, index⟩, rfl⟩
    · exact ⟨1, rfl⟩
    · refine ⟨index, ?_⟩
      rw [Document.endName, List.getLast?_concat, ← List.cons_append, elements, List.map_append,
        List.map_singleton, List.getLast?_concat]
      rfl
  obtain ⟨index, hend⟩ := hend
  rw [heq, List.getLast?_map] at hend
  obtain ⟨last, hlast, hsegment⟩ := Option.map_eq_some_iff.mp hend
  rw [hlast]
  cases last with
  | single other => exact congrArg some (Segment.element.inj hsegment).1
  | «repeated» other => exact congrArg some (Segment.element.inj hsegment).1
  | attr other => cases hsegment

/-- There is one element of this name. -/
theorem eq_of_endName_eq {trail : Trail} {p : Document.Placement}
    (hmem : ∀ write ∈ writes, write.template ∈ documentTemplates)
    (hp : p ∈ writes.map Write.placement) (hthrough : elements trail <+: p.1)
    (hname : Document.endName Layout.rootName trail = "MD_DataIdentification") :
    (Layout.rootName, 1) :: trail = resourceConstraints.1 := by
  -- All templates come to this name in one way, which leaves no index open.
  have hall : ∀ template ∈ documentTemplates, ∀ before ∈ template.inits,
      before.getLast?.map Path.TemplateSegment.name = some "MD_DataIdentification" →
        before = Layout.identification := by decide +kernel
  obtain ⟨write, hwrite, before, hbefore, heq, hlast⟩ := exists_prefix_of_reached hmem hp hthrough
  rw [hname] at hlast
  obtain rfl := hall _ (hmem write hwrite) before ((List.mem_inits _ _).mpr hbefore) hlast
  have hinjective : Function.Injective elements :=
    List.map_injective_iff.mpr fun key other h => by
      obtain ⟨hname, hindex⟩ := Segment.element.inj h
      exact Prod.ext hname hindex
  exact hinjective heq

/-- The indices that the places of the writes have at an element, each once. -/
def indicesAt (counter : Counter) (writes : List Write) : List Nat :=
  (writes.filterMap fun write => indexAt? counter.2 counter.1 write.segments).eraseDups

section Given

variable {source : Source} {given : List Contribution}

theorem exists_indicesAt_eq_range (hcounter : counter ≠ resourceConstraints)
    (hmem : ∀ write ∈ allWrites given, write.template ∈ documentTemplates)
    (hgiven : contributions source = .ok given) :
    ∃ count, indicesAt counter (allWrites given) = List.range' 1 count := by
  have hnumbered : Numbered counter [] (allWrites given) :=
    numbered_allWrites (sections_numbers hcounter) hgiven (.inl rfl)
  refine Climbs.eraseDups (@climbs_filterMap_of_agree _ _ (Write.count? counter) [] _
    (fun write n => indexAt?_of_count?) (fun write hwrite n hat => ?_) hnumbered)
  -- A place may lead through the first of the name without counting it.
  exact (index_of_indexAt? (hmem write hwrite) hat).imp_right And.left

theorem indicesAt_resourceConstraints
    (hmem : ∀ write ∈ allWrites given, write.template ∈ documentTemplates)
    (hgiven : contributions source = .ok given) :
    (source.IsSecured → indicesAt resourceConstraints (allWrites given) = [1, 2, 3]) ∧
      (¬ source.IsSecured → indicesAt resourceConstraints (allWrites given) = [2, 3]) := by
  have hopen : ∀ template ∈ documentTemplates, .single "resourceConstraints" ∉ template := by
    decide +kernel
  obtain ⟨security, hsecurity, hall⟩ := indices_resourceConstraints hgiven
  have hindices : indicesAt resourceConstraints (allWrites given) =
      if security = [] then [2, 3] else [1, 2, 3] := by
    rw [indicesAt, filterMap_indexAt?_eq_indices hmem fun write hwrite => hopen _ (hmem write hwrite),
      hall, eraseDups_securityIndices (index_eq_one_of_mem_securityWrites hsecurity)]
  rw [hindices]
  constructor
  · intro hsecured
    exact if_neg fun hnil => (securityWrites_eq_nil_iff hsecurity).mp hnil hsecured
  · intro hnone
    exact if_pos ((securityWrites_eq_nil_iff hsecurity).mpr hnone)

end Given

/-- In the document of a record the siblings of a name carry the indices 1, 2, 3 and so on in the
order in which they stand, so that an index in a path is a position. The constraints of the resource
carry the indices 1, 2 and 3 if there is a security block, and otherwise 2 and 3. -/
theorem siblings_numbered {source : Source} {tracker : Assignments}
    (hok : assignments source = .ok tracker) :
    ∃ document, Converter.assemble tracker = .ok document ∧
      ∀ node ∈ document.nodes, ∀ name,
        if node.name = "MD_DataIdentification" ∧ name = "resourceConstraints" then
          (source.IsSecured → node.indicesOf name = [1, 2, 3]) ∧
            (¬ source.IsSecured → node.indicesOf name = [2, 3])
        else node.NumbersInOrder name := by
  obtain ⟨given, hgiven, hcomposed⟩ := exists_composed hok
  have hmem := hcomposed.arranged.mem
  refine ⟨_, hcomposed.placed.assembled, ?_⟩
  refine Document.forall_mem_nodes_place_of_seenFrom fun trail index hreached name => ?_
  -- What is found in the tree is found in the writes.
  let counter : Counter := ((Layout.rootName, 1) :: trail, name)
  have hindices : (Document.place (seenFrom trail ((allWrites given).map Write.placement))
      (.leaf (Document.endName Layout.rootName trail) index)).indicesOf name =
        (indicesAt counter (allWrites given)).map Nat.cast := by
    rw [Document.indicesOf_place_seenFrom, filterMap_indexAt?_placement hmem]
    rfl
  rw [Document.name_place]
  show if Document.endName Layout.rootName trail = "MD_DataIdentification" ∧
    name = "resourceConstraints" then _ else _
  split
  · rename_i hnode
    obtain ⟨hend, rfl⟩ := hnode
    have hcounter : counter = resourceConstraints := by
      rcases hreached with rfl | ⟨p, hp, hthrough⟩
      · exact absurd hend (by decide)
      · exact Prod.ext (eq_of_endName_eq hmem hp hthrough hend) rfl
    obtain ⟨hsecured, hnone⟩ := indicesAt_resourceConstraints hmem hgiven
    rw [hcounter] at hindices
    rw [hindices]
    exact ⟨fun h => by rw [hsecured h]; rfl, fun h => by rw [hnone h]; rfl⟩
  · rename_i hnode
    have hcounter : counter ≠ resourceConstraints := by
      intro heq
      obtain ⟨htrail, hname⟩ := Prod.mk.inj heq
      obtain ⟨-, rfl⟩ := List.cons.inj htrail
      exact hnode ⟨rfl, hname⟩
    obtain ⟨count, hrange⟩ := exists_indicesAt_eq_range hcounter hmem hgiven
    rw [hrange] at hindices
    exact Node.numbersInOrder_of_indicesOf hindices

theorem sample_siblings_numbered :
    ∃ tracker document, assignments sampleSource = .ok tracker ∧
      Converter.assemble tracker = .ok document ∧ ∀ node ∈ document.nodes, ∀ name,
        if node.name = "MD_DataIdentification" ∧ name = "resourceConstraints" then
          (sampleSource.IsSecured → node.indicesOf name = [1, 2, 3]) ∧
            (¬ sampleSource.IsSecured → node.indicesOf name = [2, 3])
        else node.NumbersInOrder name := by
  obtain ⟨tracker, hok⟩ := succeeds_assignments_sampleSource
  obtain ⟨document, hassemble, hsiblings⟩ := siblings_numbered hok
  exact ⟨tracker, document, hok, hassemble, hsiblings⟩

end GeoMetadata.Profile
