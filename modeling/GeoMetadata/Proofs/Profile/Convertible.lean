import GeoMetadata.Proofs.Number.IntegerRange
import GeoMetadata.Proofs.Path.Template
import GeoMetadata.Proofs.Profile.Contributions
import GeoMetadata.Proofs.Profile.Extent
import GeoMetadata.Proofs.Time.Calendar
import GeoMetadata.Proofs.Value.Writable

/-!
# The records that can be converted

Values that are missing or of the wrong kind are passed over, but not every value that cannot be
used is: `Convertible` says what a conversion takes for granted of a record.  It goes on to the
end exactly if that holds (`succeeds_assignments_iff_convertible`).

* A date needs a text, and so it has to be in the calendar once it is put in UTC.
* A value that is written as it is needs a text, and an altitude needs a floating-point number.
  Only integers can fail here, if they are too long or too large.
* A location may be anything but curved.
* An occurrence of an element needs a number with a text, so that there is a bound on how many
  occurrences are asked for (`occurrenceCounts`).

The sections are looked at one by one.  A section is *clear* if it gives something and all its
writes have paths (`Section.Clear`), and most sections leave the progress alone, so that a run is
clear exactly if each of its sections is.  Only the geographic elements are numbered through two
sections, and there the number of countries goes into the condition on the location
(`clearFrom_geographic`).  Each section has an equivalence of its own, which the last proof rewrites
with, so that nothing is looked at twice.
-/

namespace GeoMetadata.Profile

open Number (Binary64 overflowMagnitude unwritableMagnitude ten_le_unwritableMagnitude
  one_lt_unwritableMagnitude)

/-! ## What is taken for granted -/

/-- The parties that a release is allowed to have a text, if they are looked at at all: there is
a dissemination control that is not blank. -/
def Releasable (protection : Attribute.Protection) (record : Record) : Prop :=
  ∀ control, record.value? protection.dissemination = some (.text control) →
    Text.allBlank control = false →
      ∀ party ∈ record.values protection.releasability, party.Writable

/-- The text of the location, if it is not empty. -/
def locationText? (record : Record) : Option String :=
  (record.string? Attribute.location).filter (· ≠ "")

/-- The geographic elements that a location asks for. -/
def locationCount (record : Record) : Nat :=
  match locationText? record with
  | none => 1
  | some location =>
    match WellKnownText.boundingBox location with
    | .ok box => if box.bounds?.isSome then 2 else 1
    | .error _ => 0

/-- The temporal extents that the starts and ends make. -/
def extentCount (record : Record) : Nat :=
  let starts := record.moments Attribute.start
  let ends := record.moments Attribute.end
  if starts.length = ends.length then starts.length else 0

/-- The occurrences that a party asks for. -/
def partyCounts (party : Attribute.Party) (record : Record) : List Nat :=
  [party.phone, party.address, party.email].map fun name => (record.strings name).length

/-- The occurrences that a record asks for of each element that may be repeated. -/
def occurrenceCounts (source : Source) : List Nat :=
  let record := source.record
  partyCounts Attribute.publisher record
    ++ [((record.strings Attribute.crsCode).filterMap referenceSystem?).length]
    ++ partyCounts Attribute.pointOfContact record
    ++ [(record.strings Attribute.keyword).length, (resourceLanguages source).length,
      (record.strings Attribute.topicCategory).length,
      (record.strings Attribute.countryCode).length + locationCount record, extentCount record]

/-- What a conversion takes for granted. -/
structure Convertible (source : Source) : Prop where
  /-- The date of the record is in the calendar once it is put in UTC. -/
  stamp : (stampDate source).InCalendar
  /-- So are the dates of the citation. -/
  citation : ∀ date ∈ citationDates source.record, date.2.InCalendar
  /-- So are the starts and ends of the extents. -/
  extents : ∀ date ∈ source.record.moments Attribute.start ++ source.record.moments Attribute.end,
    date.InCalendar
  /-- The integers among the altitudes have floating-point numbers. -/
  altitudes : ∀ n, .int n ∈ source.record.values Attribute.altitude → n.natAbs < overflowMagnitude
  /-- The rating, of whatever kind, has a text. -/
  rating : ∀ rating, source.record.value? Attribute.imageryRating = some rating → rating.Writable
  /-- So have the parties that a release of the resource is allowed to. -/
  resource : Releasable Attribute.resourceProtection source.record
  /-- So have those that a release of the metadata is allowed to. -/
  metadata : Releasable Attribute.metadataProtection source.record
  /-- The location has no curved parts. -/
  location : ∀ location, locationText? source.record = some location →
    WellKnownText.boundingBox location ≠ .error .curved
  /-- The occurrences of each element can be numbered. -/
  occurrences : ∀ count ∈ occurrenceCounts source, count < unwritableMagnitude

/-! ## Clear writes

A write has a path unless its index is too great for a text, so that only repeated elements have
anything to ask for. -/

/-- Every one of the writes has a path. -/
def Assignable (writes : List Write) : Prop := ∀ write ∈ writes, Succeeds write.assignment

@[simp] theorem index_only (template : Path.Template) (value : String) :
    (Write.only template value).index = 1 := rfl

theorem succeeds_assignment {write : Write} :
    Succeeds write.assignment ↔ 0 < write.index ∧ write.index < unwritableMagnitude := by
  rw [Write.assignment, succeeds_bind_of_iff fun _ _ => iff_true_intro (succeeds_ok _), and_true,
    Path.succeeds_fill]

@[simp] theorem assignable_nil : Assignable [] := fun _ h => nomatch h

@[simp] theorem assignable_cons {write : Write} {rest : List Write} :
    Assignable (write :: rest) ↔
      (0 < write.index ∧ write.index < unwritableMagnitude) ∧ Assignable rest := by
  rw [Assignable, List.forall_mem_cons, succeeds_assignment]
  rfl

@[simp] theorem assignable_append {first second : List Write} :
    Assignable (first ++ second) ↔ Assignable first ∧ Assignable second := List.forall_mem_append

theorem assignable_flatMap {α : Type} {xs : List α} {f : α → List Write} :
    Assignable (xs.flatMap f) ↔ ∀ x ∈ xs, Assignable (f x) := by
  simp only [Assignable, List.forall_mem_flatMap]

@[simp] theorem assignable_optional (template : Path.Template) (value : Option String) :
    Assignable (optional template value) := by
  cases value <;> simp [optional]

@[simp] theorem assignable_codeWrites_one (places : Layout.CodePlaces)
    (code : ClassificationCode) : Assignable (codeWrites places 1 code) := by
  simp [codeWrites]

@[simp] theorem assignable_identifierWrites_one (places : Layout.IdentifierPlaces)
    (code codeSpace : String) : Assignable (identifierWrites places 1 code codeSpace) := by
  simp [identifierWrites]

/-- The last of some occurrences that follow on each other decides. -/
theorem assignable_eachFrom (count : Nat) {template : Path.Template} {values : List String} :
    Assignable (eachFrom (count + 1) template values) ↔
      values = [] ∨ count + values.length < unwritableMagnitude := by
  induction values generalizing count with
  | nil => simp [eachFrom]
  | cons value rest ih =>
      have hstep : Assignable (eachFrom (count + 1) template (value :: rest)) ↔
          (0 < count + 1 ∧ count + 1 < unwritableMagnitude) ∧
            Assignable (eachFrom (count + 1 + 1) template rest) := by
        simp [eachFrom]
      -- The last occurrence has the greatest number, so that the others ask for less.
      rw [hstep, ih, List.length_cons]
      cases rest with
      | nil => simp
      | cons next others =>
          simp only [reduceCtorEq, false_or, List.length_cons]
          omega

@[simp] theorem assignable_each {template : Path.Template} {values : List String} :
    Assignable (each template values) ↔ values.length < unwritableMagnitude := by
  rw [each, assignable_eachFrom 0]
  cases values with
  | nil => simp [Nat.lt_of_succ_lt one_lt_unwritableMagnitude]
  | cons value rest => simp

/-! ## Clear sections

`clearFrom_plain` and `clearFrom_checked` take a run apart into its sections.  The sections of these
two kinds pass on unchanged what has been numbered so far. -/

/-- The section gives writes, all of which have paths. -/
def Yields (writes : Except ConversionFault (List Write)) : Prop :=
  ∃ given, writes = .ok given ∧ Assignable given

/-- A section that looks at a computation fails with it, and else depends on what it gives. -/
theorem yields_bind {α : Type} {e : Except ConversionFault α}
    {f : α → Except ConversionFault (List Write)} :
    Yields (e >>= f) ↔ ∃ a, e = .ok a ∧ Yields (f a) := by
  cases e <;> simp [Yields, bind, Except.bind]

@[simp] theorem yields_ok {writes : List Write} : Yields (.ok writes) ↔ Assignable writes := by
  simp [Yields]

@[simp] theorem not_yields_error (fault : ConversionFault) : ¬ Yields (.error fault) := by
  simp [Yields]

theorem yields_bind_of_assignable {α : Type} {e : Except ConversionFault α} {f : α → List Write}
    (hf : ∀ a, e = .ok a → Assignable (f a)) :
    Yields (do let a ← e; .ok (f a)) ↔ Succeeds e := by
  rw [yields_bind]
  constructor
  · rintro ⟨a, ha, -⟩
    exact ⟨a, ha⟩
  · rintro ⟨a, ha⟩
    exact ⟨a, ha, yields_ok.mpr (hf a ha)⟩

/-- The section gives something, and every write in it has a path. -/
def Section.Clear (part : Section) (source : Source) (progress : Progress) : Prop :=
  ∃ given, part.contribute source progress = .ok given ∧ Assignable given.writes

/-- The sections give something one after the other, and every write in it has a path. -/
def ClearFrom (source : Source) (parts : List Section) (progress : Progress) : Prop :=
  ∃ given, contributionsFrom source parts progress = .ok given ∧ Assignable (allWrites given)

theorem clearFrom_nil (source : Source) (progress : Progress) : ClearFrom source [] progress :=
  ⟨[], rfl, assignable_nil⟩

theorem clearFrom_cons {source : Source} {part : Section} {rest : List Section}
    {progress : Progress} :
    ClearFrom source (part :: rest) progress ↔
      ∃ given, part.contribute source progress = .ok given ∧ Assignable given.writes ∧
        ClearFrom source rest given.progress := by
  unfold ClearFrom
  simp only [contributionsFrom, bind_eq_ok_iff, Except.ok.injEq]
  constructor
  · rintro ⟨-, ⟨first, hfirst, others, hothers, rfl⟩, hwrites⟩
    obtain ⟨hhead, htail⟩ := assignable_append.mp hwrites
    exact ⟨first, hfirst, hhead, others, hothers, htail⟩
  · rintro ⟨first, hfirst, hhead, others, hothers, htail⟩
    exact ⟨_, ⟨first, hfirst, others, hothers, rfl⟩, assignable_append.mpr ⟨hhead, htail⟩⟩

/-- If the rest of the run does not look at the progress, a section can be asked about apart. -/
theorem clearFrom_cons_of_iff {source : Source} {part : Section} {rest : List Section}
    {progress : Progress} {p : Prop} (hrest : ∀ reached, ClearFrom source rest reached ↔ p) :
    ClearFrom source (part :: rest) progress ↔ part.Clear source progress ∧ p := by
  simp only [clearFrom_cons, hrest, Section.Clear]
  constructor
  · rintro ⟨given, hgiven, hwrites, hp⟩
    exact ⟨⟨given, hgiven, hwrites⟩, hp⟩
  · rintro ⟨⟨given, hgiven, hwrites⟩, hp⟩
    exact ⟨given, hgiven, hwrites, hp⟩

theorem clearFrom_plain {source : Source} {name : String} {writes : Source → List Write}
    {rest : List Section} {progress : Progress} :
    ClearFrom source (.plain name writes :: rest) progress ↔
      Assignable (writes source) ∧ ClearFrom source rest progress := by
  simp [clearFrom_cons, Section.plain]

theorem clearFrom_checked {source : Source} {name : String}
    {writes : Source → Except ConversionFault (List Write)} {rest : List Section}
    {progress : Progress} :
    ClearFrom source (.checked name writes :: rest) progress ↔
      Yields (writes source) ∧ ClearFrom source rest progress := by
  simp only [clearFrom_cons, Section.checked, map_eq_ok_iff]
  constructor
  · rintro ⟨-, ⟨given, hgiven, rfl⟩, hwrites, hrest⟩
    exact ⟨⟨given, hgiven, hwrites⟩, hrest⟩
  · rintro ⟨⟨given, hgiven, hwrites⟩, hrest⟩
    exact ⟨_, ⟨given, hgiven, rfl⟩, hwrites, hrest⟩

/-! ## The sections that ask for occurrences -/

section Plain

variable {source : Source}

theorem assignable_namespaceWrites : Assignable (namespaceWrites source) := by
  simp [namespaceWrites, namespaces]

theorem assignable_fileIdentifierWrites : Assignable (fileIdentifierWrites source) := by
  simp [fileIdentifierWrites]

theorem assignable_languageWrites : Assignable (languageWrites source) := by
  simp [languageWrites]

theorem assignable_characterSetWrites : Assignable (characterSetWrites source) := by
  simp [characterSetWrites]

theorem assignable_hierarchyLevelWrites : Assignable (hierarchyLevelWrites source) := by
  simp [hierarchyLevelWrites]

theorem assignable_partyWrites {places : Layout.PartyPlaces} {party : Attribute.Party}
    {role label : String} {record : Record} :
    Assignable (partyWrites places party role label record) ↔
      ∀ count ∈ partyCounts party record, count < unwritableMagnitude := by
  simp [partyWrites, partyCounts]

theorem assignable_standardWrites : Assignable (standardWrites source) := by
  simp [standardWrites]

theorem assignable_referenceSystemWrites :
    Assignable (referenceSystemWrites source) ↔
      ((source.record.strings Attribute.crsCode).filterMap referenceSystem?).length <
        unwritableMagnitude := by
  simp [referenceSystemWrites]

theorem assignable_abstractWrites : Assignable (abstractWrites source) := by
  simp [abstractWrites]

theorem assignable_statusWrites : Assignable (statusWrites source) := by
  unfold statusWrites
  split <;> simp

theorem assignable_keywordWrites :
    Assignable (keywordWrites source) ↔
      (source.record.strings Attribute.keyword).length < unwritableMagnitude := by
  unfold keywordWrites
  split
  · rename_i hnone
    simp [hnone, Nat.lt_of_succ_lt one_lt_unwritableMagnitude]
  · simp

theorem assignable_aggregationWrites : Assignable (aggregationWrites source) := by
  unfold aggregationWrites
  split <;> simp

theorem assignable_resourceLanguageWrites :
    Assignable (resourceLanguageWrites source) ↔
      (resourceLanguages source).length < unwritableMagnitude := by
  simp [resourceLanguageWrites]

theorem assignable_topicWrites :
    Assignable (topicWrites source) ↔
      (source.record.strings Attribute.topicCategory).length < unwritableMagnitude := by
  unfold topicWrites
  split
  · rename_i hnone
    simp [hnone, Nat.lt_of_succ_lt one_lt_unwritableMagnitude]
  · simp

theorem assignable_distributionWrites : Assignable (distributionWrites source) := by
  simp [distributionWrites]

end Plain

/-! ## The sections that may fail

A section fails where it makes something of a value, and it does so before it writes anything. -/

section Dates

variable {source : Source}

theorem succeeds_dateText {t : Time.DateTime} : Succeeds (dateText t) ↔ t.InCalendar := by
  rw [← Time.isSome_stamp?_iff, dateText]
  cases Time.stamp? t <;> simp

theorem succeeds_dateTexts {ts : List Time.DateTime} :
    Succeeds (dateTexts ts) ↔ ∀ t ∈ ts, t.InCalendar := by
  simp only [dateTexts, succeeds_mapM, succeeds_dateText]

theorem yields_dateStampWrites :
    Yields (dateStampWrites source) ↔ (stampDate source).InCalendar := by
  rw [dateStampWrites, yields_bind_of_assignable fun _ _ => by simp, succeeds_dateText]

/-- A list of at most nine items is numbered without trouble. -/
theorem assignable_flatMap_zipIdx {α : Type} {xs : List α} (f : α → Nat → List Write)
    (hshort : xs.length < 9) (hindex : ∀ x i, ∀ write ∈ f x i, write.index = i) :
    Assignable ((xs.zipIdx 1).flatMap fun entry => f entry.1 entry.2) := by
  rw [assignable_flatMap]
  rintro ⟨x, i⟩ hmem write hwrite
  have hlow : 1 ≤ i := List.le_snd_of_mem_zipIdx hmem
  have hhigh : i < 1 + xs.length := List.snd_lt_add_of_mem_zipIdx hmem
  have hten := ten_le_unwritableMagnitude
  rw [succeeds_assignment, hindex x i write hwrite]
  omega

theorem length_citationIdentifiers_lt : (citationIdentifiers source).length < 9 := by
  have hone (o : Option String) : o.toList.length ≤ 1 := by cases o <;> simp
  have hid := hone ((source.record.string? Attribute.id).map formatIdentifier)
  have hsource := hone (sourceName? source)
  simp only [citationIdentifiers, List.length_append, List.length_map]
  omega

theorem length_citationDates_lt {record : Record} : (citationDates record).length < 9 :=
  Nat.lt_of_le_of_lt (List.length_filterMap_le _ dateKinds) (by decide)

/-- The date of the edition is one of the dates of the citation. -/
theorem exists_mem_citationDates {record : Record} {date : Time.DateTime}
    (hcreated : record.moment? Attribute.created = some date) :
    ∃ kind, (kind, date) ∈ citationDates record := by
  refine ⟨⟨Attribute.created, "creation", "Creation"⟩, List.mem_filterMap.mpr ?_⟩
  exact ⟨⟨Attribute.created, "creation", "Creation"⟩, by simp [dateKinds], by simp [hcreated]⟩

theorem yields_citationWrites :
    Yields (citationWrites source) ↔ ∀ date ∈ citationDates source.record, date.2.InCalendar := by
  have hdates : Succeeds ((citationDates source.record).mapM fun date => do
      .ok (date.1, ← dateText date.2) : Except ConversionFault (List (DateKind × String))) ↔
      ∀ date ∈ citationDates source.record, date.2.InCalendar := by
    rw [succeeds_mapM]
    refine forall₂_congr fun date _ => ?_
    rw [succeeds_bind_of_iff fun _ _ => iff_true_intro (succeeds_ok _), and_true, succeeds_dateText]
  rw [citationWrites, yields_bind]
  constructor
  · rintro ⟨dates, hok, -⟩
    exact hdates.mp ⟨dates, hok⟩
  · intro hcalendar
    obtain ⟨dates, hok⟩ := hdates.mpr hcalendar
    -- There is one date of each kind at most, so that all indices can be written.
    have hlength : dates.length < 9 :=
      (mapM_eq_ok_iff.mp hok).length_eq ▸ length_citationDates_lt
    -- The date of the edition is among the dates, and so it has a text if they have.
    have hedition : Succeeds ((source.record.moment? Attribute.created).mapM dateText) := by
      cases hcreated : source.record.moment? Attribute.created with
      | none => exact ⟨none, rfl⟩
      | some date =>
          obtain ⟨kind, hmem⟩ := exists_mem_citationDates hcreated
          have hmap : (some date).mapM dateText = (dateText date).map some := rfl
          rw [hmap, succeeds_map, succeeds_dateText]
          exact hcalendar (kind, date) hmem
    refine ⟨dates, hok, (yields_bind_of_assignable fun edition _ => ?_).mpr hedition⟩
    have hdateWrites := assignable_flatMap_zipIdx
      (fun (date : DateKind × String) index => citationDateWrites index date.1 date.2) hlength
      fun x i => by simp [citationDateWrites]
    have hidentifiers := assignable_flatMap_zipIdx
      (fun (code : String × String) index =>
        identifierWrites Layout.citationIdentifier index code.1 code.2)
      (@length_citationIdentifiers_lt source) fun x i => by simp [identifierWrites]
    simpa using ⟨hdateWrites, hidentifiers⟩

end Dates

section Values

variable {source : Source}

theorem succeeds_caveat? {control? : Option Value} {parties : List Value} :
    Succeeds (caveat? control? parties) ↔
      ∀ control, control? = some (.text control) → Text.allBlank control = false →
        ∀ party ∈ parties, party.Writable := by
  have hparties : Succeeds (parties.mapM Value.display) ↔ ∀ party ∈ parties, party.Writable := by
    simp only [succeeds_mapM, Value.succeeds_display]
  unfold caveat?
  split
  · rename_i control
    by_cases hskip : Text.allBlank control = true ∨ parties = []
    · rw [if_pos hskip]
      rcases hskip with hblank | rfl
      · simp [hblank]
      · simp
    · rw [if_neg hskip]
      obtain ⟨hblank, -⟩ := not_or.mp hskip
      simp only [Option.some.injEq, Value.text.injEq, forall_eq', Bool.not_eq_true _ ▸ hblank,
        forall_const, ← hparties]
      cases parties.mapM Value.display <;> simp
  · rename_i hother
    simp only [succeeds_ok, true_iff]
    intro control hcontrol
    exact absurd hcontrol (hother control)

theorem succeeds_securityWrites (places : Layout.SecurityPlaces)
    (protection : Attribute.Protection) (source : Source) :
    (∀ given, securityWrites places protection source = .ok given → Assignable given) ∧
      (Succeeds (securityWrites places protection source) ↔
        Releasable protection source.record) := by
  have hcode (places : Layout.CodePlaces) (code : Option ClassificationCode) :
      Assignable (code.elim [] (codeWrites places 1)) := by cases code <;> simp
  constructor
  · intro given hgiven
    obtain ⟨caveat, -, heq⟩ := bind_eq_ok_iff.mp hgiven
    obtain rfl := Except.ok.inj heq
    simp [hcode]
  · rw [securityWrites, succeeds_bind_of_iff fun _ _ => iff_true_intro (succeeds_ok _), and_true,
      succeeds_caveat?]
    rfl

theorem yields_resourceConstraintWrites :
    Yields (resourceConstraintWrites source) ↔
      Releasable Attribute.resourceProtection source.record := by
  obtain ⟨hassignable, hsucceeds⟩ := succeeds_securityWrites Layout.resourceSecurity
    Attribute.resourceProtection source
  have hten := ten_le_unwritableMagnitude
  have htwo : 2 < unwritableMagnitude := by omega
  have hthree : 3 < unwritableMagnitude := by omega
  rw [resourceConstraintWrites, yields_bind_of_assignable fun security hok => ?_, hsucceeds]
  simp [hassignable _ hok, htwo, hthree]

theorem yields_metadataConstraintWrites :
    Yields (metadataConstraintWrites source) ↔
      Releasable Attribute.metadataProtection source.record := by
  obtain ⟨hassignable, hsucceeds⟩ := succeeds_securityWrites Layout.metadataSecurity
    Attribute.metadataProtection source
  rw [← hsucceeds]
  exact ⟨fun ⟨given, hok, _⟩ => ⟨given, hok⟩, fun ⟨given, hok⟩ => ⟨given, hok, hassignable _ hok⟩⟩

/-- The rating is the first of the values, of whatever kind. -/
theorem yields_imageWrites :
    Yields (imageWrites source) ↔
      ∀ rating, source.record.value? Attribute.imageryRating = some rating → rating.Writable := by
  have hcomment : Assignable (commentWrites source.record ++ contentTypeWrites) := by
    unfold commentWrites contentTypeWrites
    split <;> simp
  have hdescribed (described : Prop) [Decidable described] :
      Assignable (if described then commentWrites source.record ++ contentTypeWrites else []) := by
    split
    · exact hcomment
    · exact assignable_nil
  rw [imageWrites, Record.value?]
  cases hratings : source.record.values Attribute.imageryRating with
  | nil => simp [yields_bind, hdescribed]
  | cons rating others =>
      simp only [List.head?_cons, Option.some.injEq, forall_eq', ← Value.succeeds_display]
      cases rating.display with
      | error fault => simp [yields_bind]
      | ok text => simp [yields_bind, hdescribed]

theorem isSome_number?_iff {value : Value} :
    value.number?.isSome = true ↔ ∀ n, value = .int n → n.natAbs < overflowMagnitude := by
  cases value with
  | int n => simp [Value.number?, Binary64.isSome_ofInt?_iff]
  | _ => simp [Value.number?]

theorem isSome_numbers?_iff {record : Record} {name : String} :
    (record.numbers? name).isSome = true ↔
      ∀ n, .int n ∈ record.values name → n.natAbs < overflowMagnitude := by
  have hall (values : List Value) : (values.mapM Value.number?).isSome = true ↔
      ∀ value ∈ values, value.number?.isSome = true := by
    induction values with
    | nil => simp
    | cons value rest ih =>
        rw [List.forall_mem_cons, ← ih, List.mapM_cons]
        cases value.number? <;> cases rest.mapM Value.number? <;> simp
  rw [Record.numbers?, Option.isSome_map, hall]
  simp only [isSome_number?_iff]
  constructor
  · intro h n hn
    exact h _ hn n rfl
  · rintro h value hvalue n rfl
    exact h n hvalue

theorem yields_verticalWrites :
    Yields (verticalWrites source) ↔
      ∀ n, .int n ∈ source.record.values Attribute.altitude → n.natAbs < overflowMagnitude := by
  rw [← isSome_numbers?_iff, verticalWrites]
  cases source.record.numbers? Attribute.altitude with
  | none => simp
  | some altitudes =>
      simp only [Option.isSome_some, iff_true]
      split <;> simp

end Values

/-! ## The extent

These sections are told how many geographic elements and ids there are, and only the first number
has a say in whether they are clear. -/

section Extent

variable {source : Source}

theorem clear_countryContribution {progress : Progress} :
    Assignable (countryContribution source progress).writes ↔
      source.record.strings Attribute.countryCode = [] ∨
        progress.geographic + (source.record.strings Attribute.countryCode).length <
          unwritableMagnitude := by
  simp [countryContribution, assignable_eachFrom]

theorem assignable_boundingBoxContribution {progress : Progress} {box : BoundingBox} :
    Assignable (boundingBoxContribution source progress box).writes ↔
      progress.geographic + (if box.bounds?.isSome then 2 else 1) < unwritableMagnitude := by
  unfold boundingBoxContribution
  cases hbounds : box.bounds? with
  | none => simp
  | some bounds =>
      obtain ⟨west, east, south, north, rfl⟩ := exists_bounds?_eq hbounds
      simp only [boundWrites, Layout.bounds, List.map_cons, List.map_nil, List.zip_cons_cons,
        List.zip_nil_right, assignable_append, assignable_cons, assignable_nil, and_true,
        Option.isSome_some, if_true]
      omega

/-- The location is readable or passed over, and its geographic elements can be numbered. -/
theorem clear_locationContribution {progress : Progress} :
    Section.Clear ⟨"bounding_polygon", locationContribution⟩ source progress ↔
      (∀ location, locationText? source.record = some location →
        WellKnownText.boundingBox location ≠ .error .curved) ∧
      (locationCount source.record = 0 ∨
        progress.geographic + locationCount source.record < unwritableMagnitude) := by
  have hempty : Assignable (emptyBoundWrites (progress.geographic + 1)) ↔
      progress.geographic + 1 < unwritableMagnitude := by
    simp [emptyBoundWrites, Layout.bounds]
  have hlocation : (source.record.string? Attribute.location).filter (fun text => text ≠ "") =
      locationText? source.record := rfl
  simp only [Section.Clear, locationContribution, hlocation, locationCount]
  -- Without a location there is an empty box.  A malformed one asks for nothing, a curved one
  -- fails.
  cases locationText? source.record with
  | none => simp [hempty]
  | some location =>
      cases hbox : WellKnownText.boundingBox location with
      | ok box =>
          have hcount : ¬ (if box.bounds?.isSome = true then 2 else 1) = 0 := by split <;> simp
          simp [hbox, hcount, assignable_boundingBoxContribution]
      | error fault => cases fault <;> simp [hbox]

theorem assignable_extentWrites {gmlId : String} {extent : TemporalExtent}
    (hpositive : 0 < extent.index) :
    Assignable (extentWrites gmlId extent) ↔ extent.index < unwritableMagnitude := by
  unfold extentWrites
  split <;> simp [hpositive]

theorem assignable_extents {starts ends : List String} {gmlId : TemporalExtent → String} :
    Assignable ((pairExtents starts ends).flatMap fun extent =>
        extentWrites (gmlId extent) extent) ↔
      (if starts.length = ends.length then starts.length else 0) < unwritableMagnitude := by
  have hten := ten_le_unwritableMagnitude
  generalize hcount : (if starts.length = ends.length then starts.length else 0) = count
  calc Assignable ((pairExtents starts ends).flatMap fun extent =>
          extentWrites (gmlId extent) extent)
      ↔ ∀ extent ∈ pairExtents starts ends, extent.index < unwritableMagnitude := by
        rw [assignable_flatMap]
        exact forall₂_congr fun extent hmem =>
          assignable_extentWrites (index_pos_of_mem_pairExtents hmem)
    _ ↔ ∀ index ∈ List.range' 1 count, index < unwritableMagnitude := by
        rw [← hcount, ← map_index_pairExtents, List.forall_mem_map]
    _ ↔ count < unwritableMagnitude := by
        simp only [List.mem_range'_1]
        exact ⟨fun h => Nat.not_le.mp fun hle => by have := h count; omega,
          fun h index hrange => by omega⟩

theorem clear_temporalContribution {progress : Progress} :
    Section.Clear ⟨"temporal_elements", temporalContribution⟩ source progress ↔
      (∀ date ∈ source.record.moments Attribute.start ++ source.record.moments Attribute.end,
        date.InCalendar) ∧ extentCount source.record < unwritableMagnitude := by
  have hlength {ts : List Time.DateTime} {texts : List String} (hok : dateTexts ts = .ok texts) :
      texts.length = ts.length := (mapM_eq_ok_iff.mp hok).length_eq.symm
  simp only [Section.Clear, temporalContribution, bind_eq_ok_iff, Except.ok.injEq,
    List.forall_mem_append, ← succeeds_dateTexts]
  constructor
  · rintro ⟨-, ⟨starts, hstarts, ends, hends, rfl⟩, hwrites⟩
    rw [assignable_extents, hlength hstarts, hlength hends] at hwrites
    exact ⟨⟨⟨starts, hstarts⟩, ⟨ends, hends⟩⟩, hwrites⟩
  · rintro ⟨⟨⟨starts, hstarts⟩, ⟨ends, hends⟩⟩, hcount⟩
    refine ⟨_, ⟨starts, hstarts, ends, hends, rfl⟩, ?_⟩
    rw [assignable_extents, hlength hstarts, hlength hends]
    exact hcount

end Extent

/-! ## The whole run -/

/-- The sections after the extent, where no section looks at the progress. -/
theorem clearFrom_afterExtent {source : Source} {progress : Progress} :
    ClearFrom source
      [.checked "vertical_element" verticalWrites, .checked "image_description" imageWrites,
        .plain "distribution_info" distributionWrites,
        .checked "metadata_constraints" metadataConstraintWrites] progress ↔
      (∀ n, .int n ∈ source.record.values Attribute.altitude → n.natAbs < overflowMagnitude) ∧
      (∀ rating, source.record.value? Attribute.imageryRating = some rating → rating.Writable) ∧
      Releasable Attribute.metadataProtection source.record := by
  rw [clearFrom_checked, clearFrom_checked, clearFrom_plain, clearFrom_checked,
    yields_verticalWrites, yields_imageWrites, yields_metadataConstraintWrites]
  simp only [clearFrom_nil, assignable_distributionWrites, and_true, true_and]

/-- The countries and the location are numbered through: the last of their elements decides. -/
theorem clearFrom_geographic {source : Source} {rest : List Section} {p : Prop}
    (hrest : ∀ reached, ClearFrom source rest reached ↔ p) :
    ClearFrom source
      (⟨"geographic_identifier", fun source progress => .ok (countryContribution source progress)⟩
        :: ⟨"bounding_polygon", locationContribution⟩ :: rest) Draft.start.progress ↔
      ((∀ location, locationText? source.record = some location →
        WellKnownText.boundingBox location ≠ .error .curved) ∧
      (source.record.strings Attribute.countryCode).length + locationCount source.record <
        unwritableMagnitude) ∧ p := by
  have hten := ten_le_unwritableMagnitude
  have hnone : source.record.strings Attribute.countryCode = [] ↔
      (source.record.strings Attribute.countryCode).length = 0 := List.length_eq_zero_iff.symm
  rw [clearFrom_cons]
  simp only [Except.ok.injEq, exists_eq_left', clearFrom_cons_of_iff hrest,
    clear_countryContribution, clear_locationContribution, hnone]
  simp only [countryContribution, Draft.start, Nat.zero_add]
  generalize (source.record.strings Attribute.countryCode).length = countries
  generalize locationCount source.record = located
  -- The element that is written last has the greatest number, and without one there is no bound.
  constructor
  · rintro ⟨hcountries, ⟨hcurved, hlocated⟩, hp⟩
    exact ⟨⟨hcurved, by omega⟩, hp⟩
  · rintro ⟨⟨hcurved, hcount⟩, hp⟩
    exact ⟨by omega, ⟨hcurved, by omega⟩, hp⟩

theorem clearFrom_sections_iff {source : Source} :
    ClearFrom source sections Draft.start.progress ↔ Convertible source := by
  -- From the temporal extents on, no section looks at the progress, whatever it is.
  have hafter (reached : Progress) :=
    (@clearFrom_cons_of_iff source ⟨"temporal_elements", temporalContribution⟩ _ reached _
      fun _ => clearFrom_afterExtent).trans (and_congr_left' clear_temporalContribution)
  simp only [sections, clearFrom_plain, clearFrom_checked, clearFrom_geographic hafter,
    assignable_namespaceWrites, assignable_fileIdentifierWrites, assignable_languageWrites,
    assignable_characterSetWrites, assignable_hierarchyLevelWrites, contactWrites,
    assignable_partyWrites, yields_dateStampWrites, assignable_standardWrites,
    assignable_referenceSystemWrites, yields_citationWrites, assignable_abstractWrites,
    assignable_statusWrites, pointOfContactWrites, assignable_keywordWrites,
    yields_resourceConstraintWrites, assignable_aggregationWrites,
    assignable_resourceLanguageWrites, assignable_topicWrites, true_and]
  -- The sections ask in the order in which they write, and `Convertible` by kinds of values.
  constructor
  · rintro ⟨hpublisher, hstamp, hsystems, hcitation, hcontact, hkeywords, hresource, hlanguages,
      htopics, ⟨hcurved, hgeographic⟩, ⟨hextents, hextentCount⟩, haltitudes, hrating, hmetadata⟩
    refine ⟨hstamp, hcitation, hextents, haltitudes, hrating, hresource, hmetadata, hcurved, ?_⟩
    simp only [occurrenceCounts, List.forall_mem_append, List.forall_mem_cons]
    exact ⟨⟨⟨hpublisher, hsystems, by simp⟩, hcontact⟩, hkeywords, hlanguages, htopics,
      hgeographic, hextentCount, by simp⟩
  · rintro ⟨hstamp, hcitation, hextents, haltitudes, hrating, hresource, hmetadata, hcurved, hcounts⟩
    simp only [occurrenceCounts, List.forall_mem_append, List.forall_mem_cons] at hcounts
    obtain ⟨⟨⟨hpublisher, hsystems, -⟩, hcontact⟩, hkeywords, hlanguages, htopics,
      hgeographic, hextentCount, -⟩ := hcounts
    exact ⟨hpublisher, hstamp, hsystems, hcitation, hcontact, hkeywords, hresource, hlanguages,
      htopics, ⟨hcurved, hgeographic⟩, ⟨hextents, hextentCount⟩, haltitudes, hrating, hmetadata⟩

/-- A conversion gives assignments exactly if what it takes for granted holds. -/
theorem succeeds_assignments_iff_convertible (source : Source) :
    (∃ tracker, assignments source = .ok tracker) ↔ Convertible source := by
  rw [← clearFrom_sections_iff]
  exact succeeds_assignments

/-! ## Values that end a conversion -/

/-- The source of a record with some attributes, at the beginning of the calendar. -/
def sourceOf (attributes : List (String × List Value)) : Source where
  settings := .default
  mapping := .ofList []
  systemName := none
  record := ⟨.ofList attributes, none⟩
  now := ⟨⟨1, 1, 1, rfl⟩, .midnight, none⟩
  gmlId _ := ""

/-- An integer beyond the numbers, a date that is before the calendar in UTC, an integer that is
too long and a curved location are not passed over. -/
theorem assignments_eq_error_of_unusable_value :
    assignments (sourceOf [(Attribute.altitude, [.int (.ofNat (Nat.pow 10 400))])]) =
      .error .numberTooLarge ∧
    assignments (sourceOf [(Attribute.expiration,
      [.moment ⟨⟨1, 1, 1, rfl⟩, .midnight, some ⟨3600, by decide⟩⟩])]) = .error .dateOutOfRange ∧
    assignments (sourceOf [(Attribute.imageryRating, [.int (.ofNat (Nat.pow 10 4300))])]) =
      .error (.integer (.integer .tooLongToWrite)) ∧
    assignments (sourceOf [(Attribute.location, [.text "CIRCULARSTRING (0 0, 1 1, 2 0)"])]) =
      .error .curvedLocation := by
  refine ⟨?_, ?_, ?_, ?_⟩ <;>
    · apply eq_error_of_faultOf?
      decide +kernel

end GeoMetadata.Profile
