import GeoMetadata.Failure
import GeoMetadata.Proofs.Outcome
import GeoMetadata.Proofs.Value.Writable

/-!
# What a record keeps of its data

Data gives a record or is reported.  A record has the attributes of its data under their names and
in their order (`forall₂_keeps`).  Its values are those of the data one by one: in a dated attribute
a text is the moment that it names and a plain date its midnight (`ReadAs`), and all else is what it
was. Which moment a text names is up to the reader of dates, of which nothing is assumed here: it
gives a moment, or it fails.

Data gives a record exactly if it is sound (`succeeds_ofAttributes_iff`): its names are texts, the
texts of its dated attributes are dates, and its source can be written.  The source has no part in
the attributes, so that it does not matter whether they are wrapped with one
(`map_attributes_ofAttributes`).
-/

namespace GeoMetadata.Record

variable {attr name : String} {value read source : Value} {entry : Value × Value}
  {entries reads : List (Value × Value)} {record : Record} {data : OrderedMap String Value}
  {moment : Time.Iso8601.Reader}

/-! ## Dates -/

/-- The value is a text or a plain date. -/
def IsTextOrDate : Value → Prop
  | .text _ => True
  | .date _ => True
  | _ => False

/-- A value of a dated attribute and what it is in a record. -/
inductive ReadAs (moment : Time.Iso8601.Reader) : Value → Value → Prop
  | text {s : String} {t : Time.DateTime} (h : moment s = .ok t) :
      ReadAs moment (.text s) (.moment t)
  | date (d : Time.Date) : ReadAs moment (.date d) (.moment ⟨d, .midnight, none⟩)
  | other {value : Value} (h : ¬IsTextOrDate value) : ReadAs moment value value

theorem ReadAs.not_isTextOrDate (h : ReadAs moment value read) : ¬IsTextOrDate read := by
  cases h with
  | text => exact not_false
  | date => exact not_false
  | other h => exact h

theorem readAs_of_datedValue (h : datedValue moment attr value = .ok read) :
    ReadAs moment value read := by
  cases value with
  | text s =>
      rw [datedValue] at h
      cases hread : moment s with
      | ok t =>
          rw [hread] at h
          obtain rfl := Except.ok.inj h
          exact .text hread
      | error fault =>
          rw [hread] at h
          cases fault <;> cases h
  | date d =>
      obtain rfl := Except.ok.inj h
      exact .date d
  | _ =>
      obtain rfl := Except.ok.inj h
      exact .other not_false

theorem succeeds_datedValue :
    Succeeds (datedValue moment attr value) ↔ ∀ s, value = .text s → Succeeds (moment s) := by
  cases value with
  | text s =>
      simp only [datedValue, Value.text.injEq, forall_eq']
      cases moment s with
      | ok t => simp
      | error fault => cases fault <;> simp
  | _ => simp [datedValue]

/-- A value that is no list stands for a list, and is read as its item. -/
theorem ReadAs.forall₂_wrap (h : ReadAs moment value read) (hlist : ∀ items, value ≠ .list items) :
    List.Forall₂ (ReadAs moment) (wrap value) (wrap read) := by
  cases h with
  | text h => exact .cons (.text h) .nil
  | date d => exact .cons (.date d) .nil
  | other h =>
      cases value with
      | list items => exact absurd rfl (hlist items)
      | null => exact .nil
      | _ => exact .cons (.other h) .nil

theorem readDates_of_mem (hdated : attr ∈ Attribute.dated) (hlist : ∀ items, value ≠ .list items) :
    readDates moment (.text attr) value = datedValue moment attr value := by
  cases value with
  | list items => exact absurd rfl (hlist items)
  | _ => exact if_pos hdated

theorem readDates_list (hdated : attr ∈ Attribute.dated) (items : List Value) :
    readDates moment (.text attr) (.list items) =
      (items.mapM (datedValue moment attr)).map .list := by
  simp only [readDates, if_pos hdated]
  cases items.mapM (datedValue moment attr) <;> rfl

theorem readDates_of_not_mem (hdated : attr ∉ Attribute.dated) (value : Value) :
    readDates moment (.text attr) value = .ok value := by
  simp only [readDates, if_neg hdated]

/-- The values of a dated attribute are read one by one. -/
theorem forall₂_readAs (hdated : attr ∈ Attribute.dated)
    (h : readDates moment (.text attr) value = .ok read) :
    List.Forall₂ (ReadAs moment) (wrap value) (wrap read) := by
  by_cases hlist : ∃ items, value = .list items
  · obtain ⟨items, rfl⟩ := hlist
    rw [readDates_list hdated, map_eq_ok_iff] at h
    obtain ⟨others, hothers, rfl⟩ := h
    exact (mapM_eq_ok_iff.mp hothers).imp fun _ _ => readAs_of_datedValue
  · rw [not_exists] at hlist
    rw [readDates_of_mem hdated hlist] at h
    exact (readAs_of_datedValue h).forall₂_wrap hlist

theorem succeeds_readDates (hdated : attr ∈ Attribute.dated) :
    Succeeds (readDates moment (.text attr) value) ↔
      ∀ s, .text s ∈ wrap value → Succeeds (moment s) := by
  by_cases hlist : ∃ items, value = .list items
  · obtain ⟨items, rfl⟩ := hlist
    rw [readDates_list hdated, succeeds_map, succeeds_mapM]
    simp only [succeeds_datedValue, wrap]
    exact ⟨fun h s hs => h _ hs s rfl, fun h value hvalue s hs => h s (hs ▸ hvalue)⟩
  · rw [not_exists] at hlist
    rw [readDates_of_mem hdated hlist, succeeds_datedValue]
    cases value with
    | list items => exact absurd rfl (hlist items)
    | _ => simp [wrap]

/-! ## Attributes -/

/-- What a record holds of an attribute is what the entry gives. -/
structure Keeps (moment : Time.Iso8601.Reader) (entry : Value × Value)
    (held : String × List Value) : Prop where
  name : entry.1 = .text held.1
  dated : held.1 ∈ Attribute.dated → List.Forall₂ (ReadAs moment) (wrap entry.2) held.2
  other : held.1 ∉ Attribute.dated → held.2 = wrap entry.2

/-- The keys of the entries differ, as those of a map do. -/
def DistinctKeys (entries : List (Value × Value)) : Prop :=
  (entries.map Prod.fst).Pairwise fun first second => first.sameKey second = false

instance (entries : List (Value × Value)) : Decidable (DistinctKeys entries) :=
  inferInstanceAs (Decidable (List.Pairwise _ _))

/-- The names of the entries are texts. -/
def HasTextNames (entries : List (Value × Value)) : Prop :=
  ∀ entry ∈ entries, ∃ name, entry.1 = .text name

/-- The attributes that entries give. -/
def attributesOf (entries : List (Value × Value)) : List (String × List Value) :=
  entries.filterMap fun (key, value) => key.text?.map fun name => (name, wrap value)

theorem fst_eq_of_readEntry {read : Value × Value} (h : readEntry moment entry = .ok read) :
    read.1 = entry.1 := by
  obtain ⟨value, -, h⟩ := bind_eq_ok_iff.mp h
  obtain rfl := Except.ok.inj h
  rfl

theorem keeps_of_readEntry {read : Value × Value} (h : readEntry moment entry = .ok read)
    (hname : read.1 = .text name) : Keeps moment entry (name, wrap read.2) := by
  obtain ⟨value, hvalue, h⟩ := bind_eq_ok_iff.mp h
  obtain rfl := Except.ok.inj h
  have hkey : entry.1 = .text name := hname
  rw [hkey] at hvalue
  refine ⟨hkey, fun hdated => forall₂_readAs hdated hvalue, fun hdated => ?_⟩
  rw [readDates_of_not_mem hdated] at hvalue
  rw [Except.ok.inj hvalue]

/-- Entries with texts as names are attributes that keep their values. -/
theorem forall₂_keeps (hreads : entries.mapM (readEntry moment) = .ok reads)
    (hnames : HasTextNames reads) : List.Forall₂ (Keeps moment) entries (attributesOf reads) := by
  rw [mapM_eq_ok_iff] at hreads
  induction hreads with
  | nil => exact .nil
  | @cons entry read entries reads hread _ ih =>
      obtain ⟨⟨name, hname⟩, hrest⟩ := List.forall_mem_cons.mp hnames
      have hkeeps := keeps_of_readEntry hread hname
      obtain ⟨key, value⟩ := read
      obtain rfl : key = .text name := hname
      exact .cons hkeeps (ih hrest)

theorem hasTextNames_iff (hreads : entries.mapM (readEntry moment) = .ok reads) :
    HasTextNames reads ↔ HasTextNames entries := by
  rw [mapM_eq_ok_iff] at hreads
  unfold HasTextNames
  induction hreads with
  | nil => simp
  | cons hread _ ih => rw [List.forall_mem_cons, List.forall_mem_cons, fst_eq_of_readEntry hread, ih]

/-- Attributes that keep entries with different keys have different names. -/
theorem nodup_of_keeps {attributes : List (String × List Value)} (hkeys : DistinctKeys entries)
    (h : List.Forall₂ (Keeps moment) entries attributes) : (attributes.map Prod.fst).Nodup := by
  have hnames : entries.map Prod.fst = attributes.map fun held => .text held.1 := by
    clear hkeys
    induction h with
    | nil => rfl
    | cons hkeeps _ ih => rw [List.map_cons, List.map_cons, hkeeps.name, ih]
  rw [DistinctKeys, hnames, List.pairwise_map] at hkeys
  exact List.pairwise_map.mpr (hkeys.imp fun hdiffer => beq_eq_false_iff_ne.mp hdiffer)

/-! ## Records -/

theorem filterMap_nameIssue?_eq_nil_iff :
    entries.filterMap (nameIssue? ·.1) = [] ↔ HasTextNames entries := by
  rw [List.filterMap_eq_nil_iff]
  refine forall₂_congr fun entry _ => ?_
  cases entry.1 <;> simp [nameIssue?]

/-- The attributes are checked as a whole: either all names are texts, or there are issues. -/
theorem checkAttributes_of_hasTextNames (h : HasTextNames entries) :
    checkAttributes entries = .ok (.ofList (attributesOf entries)) := by
  rw [checkAttributes, filterMap_nameIssue?_eq_nil_iff.mpr h]
  rfl

theorem succeeds_checkAttributes : Succeeds (checkAttributes entries) ↔ HasTextNames entries := by
  refine ⟨fun h => filterMap_nameIssue?_eq_nil_iff.mp ?_,
    fun h => ⟨_, checkAttributes_of_hasTextNames h⟩⟩
  rw [checkAttributes] at h
  split at h
  · assumption
  · exact absurd h (not_succeeds_error _)

/-- The source that a record gets from a value, if the value can be written. -/
theorem exists_checkSource (h : sourceText source = .ok value) :
    ∃ sourceId, checkSource value = .ok sourceId := by
  unfold sourceText at h
  split at h
  · obtain rfl := Except.ok.inj h
    exact ⟨none, rfl⟩
  · split at h
    · obtain rfl := Except.ok.inj h
      exact ⟨_, rfl⟩
    · cases h

theorem succeeds_sourceText : Succeeds (sourceText source) ↔ source.Writable := by
  rw [← Value.succeeds_display]
  cases source with
  | null => simp [sourceText, Value.display, Value.literal]
  | _ =>
      simp only [sourceText]
      split <;> simp [*]

theorem ofAttributes_eq (entries : List (Value × Value)) (source : Value) :
    ofAttributes moment entries source = entries.mapM (readEntry moment) >>= fun reads =>
      sourceText source >>= fun value => (ofEntries reads value).mapError .invalid := by
  unfold ofAttributes
  refine congrArg _ (funext fun reads => congrArg _ (funext fun value => ?_))
  cases ofEntries reads value <;> rfl

/-- A source that can be written has no part in the attributes. -/
theorem map_attributes_ofAttributes (h : source.Writable) :
    (ofAttributes moment entries source).map Record.attributes =
      entries.mapM (readEntry moment) >>= fun reads =>
        (checkAttributes reads).mapError DataFault.invalid := by
  obtain ⟨value, hvalue⟩ := succeeds_sourceText.mpr h
  obtain ⟨sourceId, hsource⟩ := exists_checkSource hvalue
  rw [ofAttributes_eq, hvalue]
  cases entries.mapM (readEntry moment) with
  | error fault => rfl
  | ok reads =>
      show ((ofEntries reads value).mapError DataFault.invalid).map Record.attributes =
        (checkAttributes reads).mapError DataFault.invalid
      rw [ofEntries, hsource]
      cases checkAttributes reads with
      | ok attributes => rfl
      | error issues => simp [combine, Checked.issues, Except.map, Except.mapError]

/-- Entries and a source of which a record can be made. -/
structure IsSound (moment : Time.Iso8601.Reader) (entries : List (Value × Value))
    (source : Value) : Prop where
  names : HasTextNames entries
  dates : ∀ name value, (.text name, value) ∈ entries → name ∈ Attribute.dated →
    ∀ s, .text s ∈ wrap value → Succeeds (moment s)
  source : source.Writable

theorem succeeds_readEntry :
    Succeeds (readEntry moment (.text name, value)) ↔
      (name ∈ Attribute.dated → ∀ s, .text s ∈ wrap value → Succeeds (moment s)) := by
  have hread : Succeeds (readEntry moment (.text name, value)) ↔
      Succeeds (readDates moment (.text name) value) := by
    rw [readEntry, succeeds_bind_of_iff fun _ _ => iff_true_intro (succeeds_ok _), and_true]
  rw [hread]
  by_cases hdated : name ∈ Attribute.dated
  · rw [succeeds_readDates hdated, imp_iff_right hdated]
  · rw [readDates_of_not_mem hdated]
    exact iff_of_true (succeeds_ok _) fun h => absurd h hdated

theorem succeeds_mapM_readEntry (hnames : HasTextNames entries) :
    Succeeds (entries.mapM (readEntry moment)) ↔
      ∀ name value, (.text name, value) ∈ entries → name ∈ Attribute.dated →
        ∀ s, .text s ∈ wrap value → Succeeds (moment s) := by
  rw [succeeds_mapM]
  constructor
  · intro h name value hmem
    exact succeeds_readEntry.mp (h _ hmem)
  · rintro h ⟨key, value⟩ hmem
    obtain ⟨name, hname⟩ := hnames _ hmem
    obtain rfl : key = .text name := hname
    exact succeeds_readEntry.mpr (h name value hmem)

theorem writable_of_succeeds_ofAttributes (h : Succeeds (ofAttributes moment entries source)) :
    source.Writable := by
  obtain ⟨record, h⟩ := h
  obtain ⟨reads, -, h⟩ := bind_eq_ok_iff.mp h
  obtain ⟨value, hvalue, -⟩ := bind_eq_ok_iff.mp h
  exact succeeds_sourceText.mp ⟨value, hvalue⟩

/-- The attributes of a record are those of the entries once their dates are read. -/
theorem exists_reads (h : ofAttributes moment entries source = .ok record) :
    ∃ reads, entries.mapM (readEntry moment) = .ok reads ∧ HasTextNames reads ∧
      record.attributes = .ofList (attributesOf reads) := by
  have hmap : (ofAttributes moment entries source).map Record.attributes = _ :=
    map_attributes_ofAttributes (writable_of_succeeds_ofAttributes ⟨record, h⟩)
  rw [h] at hmap
  obtain ⟨reads, hreads, hchecked⟩ := bind_eq_ok_iff.mp hmap.symm
  rw [mapError_eq_ok_iff] at hchecked
  have hnames := succeeds_checkAttributes.mp ⟨_, hchecked⟩
  rw [checkAttributes_of_hasTextNames hnames] at hchecked
  exact ⟨reads, hreads, hnames, (Except.ok.inj hchecked).symm⟩

theorem succeeds_ofAttributes_iff :
    Succeeds (ofAttributes moment entries source) ↔ IsSound moment entries source := by
  constructor
  · rintro ⟨record, h⟩
    obtain ⟨reads, hreads, hnames, -⟩ := exists_reads h
    rw [hasTextNames_iff hreads] at hnames
    exact ⟨hnames, (succeeds_mapM_readEntry hnames).mp ⟨reads, hreads⟩,
      writable_of_succeeds_ofAttributes ⟨record, h⟩⟩
  · intro h
    obtain ⟨reads, hreads⟩ := (succeeds_mapM_readEntry h.names).mpr h.dates
    have hchecked := checkAttributes_of_hasTextNames ((hasTextNames_iff hreads).mpr h.names)
    rw [← succeeds_map (f := Record.attributes), map_attributes_ofAttributes h.source, hreads]
    show Succeeds ((checkAttributes reads).mapError DataFault.invalid)
    rw [hchecked]
    exact succeeds_ok _

/-- The attributes of a record keep the entries one by one. -/
theorem forall₂_keeps_ofAttributes (hkeys : DistinctKeys entries)
    (h : ofAttributes moment entries source = .ok record) :
    List.Forall₂ (Keeps moment) entries record.attributes.entries := by
  obtain ⟨reads, hreads, hnames, hattributes⟩ := exists_reads h
  have hkeeps := forall₂_keeps hreads hnames
  rw [hattributes, OrderedMap.entries_ofList_of_nodup (nodup_of_keeps hkeys hkeeps)]
  exact hkeeps

/-- No text and no plain date is left among the values of a dated attribute. -/
theorem not_isTextOrDate_of_keeps {attributes : OrderedMap String (List Value)}
    (h : List.Forall₂ (Keeps moment) entries attributes.entries) {values : List Value}
    (hdated : name ∈ Attribute.dated) (hvalues : attributes.get? name = some values) :
    ∀ value ∈ values, ¬IsTextOrDate value := by
  obtain ⟨entry, -, hkeeps⟩ := exists_mem_of_forall₂ h.flip (OrderedMap.get?_eq_some_iff.mp hvalues)
  intro value hvalue
  obtain ⟨given, -, hread⟩ := exists_mem_of_forall₂ (hkeeps.dated hdated).flip hvalue
  exact hread.not_isTextOrDate

/-! ## Data -/

/-- The entries of a map whose keys are texts. -/
def textEntries (data : OrderedMap String Value) : List (Value × Value) :=
  data.entries.map fun entry => (.text entry.1, entry.2)

/-- The entries that data has for attributes: those of the map that it wraps, or else its own. -/
def attributeEntries? (data : OrderedMap String Value) : Option (List (Value × Value)) :=
  match data.get? "attributes" with
  | none => some (textEntries data)
  | some (.map entries) => some entries
  | some _ => none

/-- The value that data has for the source: it has one only beside a map that it wraps. -/
def sourceValue (data : OrderedMap String Value) : Value :=
  if data.contains "attributes" then (data.get? "source_id").getD .null else .null

/-- The record of a map with texts as keys, that may come from a file. -/
def ofMap (moment : Time.Iso8601.Reader) (data : OrderedMap String Value) (file : Option String) :
    Except Failure Record :=
  (ofData moment (textEntries data)).mapError (.ofData file)

theorem field?_textEntries (data : OrderedMap String Value) (name : String) :
    Value.field? (textEntries data) name = data.get? name := by
  rw [textEntries, OrderedMap.get?]
  induction data.entries with
  | nil => rfl
  | cons entry rest ih =>
      rw [List.map_cons, entryValue?, ← ih, Value.field?, List.findSome?_cons]
      by_cases hname : entry.1 = name
      · simp [Value.text?, hname]
      · simp [Value.text?, hname, Value.field?]

theorem distinctKeys_textEntries (data : OrderedMap String Value) :
    DistinctKeys (textEntries data) := by
  rw [DistinctKeys, textEntries, List.map_map, List.pairwise_map]
  exact (List.pairwise_map.mp data.nodup).imp fun hne => beq_eq_false_iff_ne.mpr hne

theorem ofData_textEntries (data : OrderedMap String Value) :
    ofData moment (textEntries data) = (attributeEntries? data).elim (.error .notMap) fun entries =>
      ofAttributes moment entries (sourceValue data) := by
  rw [ofData, field?_textEntries, field?_textEntries, attributeEntries?, sourceValue,
    OrderedMap.contains]
  cases data.get? "attributes" with
  | none => rfl
  | some value => cases value <;> rfl

theorem distinctKeys_attributeEntries? (h : attributeEntries? data = some entries)
    (hkeys : ∀ entries, data.get? "attributes" = some (.map entries) → DistinctKeys entries) :
    DistinctKeys entries := by
  unfold attributeEntries? at h
  split at h
  · obtain rfl := Option.some.inj h
    exact distinctKeys_textEntries data
  · rename_i given hgiven
    obtain rfl := Option.some.inj h
    exact hkeys given hgiven
  · cases h

theorem succeeds_ofMap_iff {file : Option String} :
    Succeeds (ofMap moment data file) ↔
      ∃ entries, attributeEntries? data = some entries ∧
        IsSound moment entries (sourceValue data) := by
  have hdata : Succeeds (ofMap moment data file) ↔ Succeeds (ofData moment (textEntries data)) := by
    simp only [Succeeds, ofMap, mapError_eq_ok_iff]
  rw [hdata, ofData_textEntries]
  cases attributeEntries? data with
  | none => simp
  | some entries => simp [succeeds_ofAttributes_iff]

/-- Attributes are the same with and without a map around them, as far as the source can be written.
-/
theorem map_attributes_ofMap_wrapper {wrapper : OrderedMap String Value}
    (hdata : data.get? "attributes" = none)
    (hwrapper : wrapper.get? "attributes" = some (.map (textEntries data)))
    (hsource : (sourceValue wrapper).Writable) (file : Option String) :
    (ofMap moment wrapper file).map Record.attributes =
      (ofMap moment data file).map Record.attributes := by
  have hcomm (e : Except DataFault Record) :
      (e.mapError (Failure.ofData file)).map Record.attributes =
        (e.map Record.attributes).mapError (Failure.ofData file) := by
    cases e <;> rfl
  have hinner : attributeEntries? data = some (textEntries data) := by
    rw [attributeEntries?, hdata]
  have houter : attributeEntries? wrapper = some (textEntries data) := by
    rw [attributeEntries?, hwrapper]
  have hnull : sourceValue data = .null := by
    rw [sourceValue, OrderedMap.contains, hdata]
    rfl
  rw [ofMap, ofMap, hcomm, hcomm, ofData_textEntries, ofData_textEntries, hinner, houter, hnull]
  show ((ofAttributes moment _ _).map Record.attributes).mapError _ =
    ((ofAttributes moment _ _).map Record.attributes).mapError _
  rw [map_attributes_ofAttributes hsource, map_attributes_ofAttributes (by decide)]

/-- A title, and a text, a plain date and a null among the dates of changes. -/
def sampleAttributes : OrderedMap String Value :=
  .ofList [("title", .text "Roads"),
    ("modified", .list [.text "2024-02-29T12:00:00Z", .date ⟨2024, 3, 1, rfl⟩, .null])]

/-- These attributes, wrapped with the name of a catalog. -/
def sampleData : OrderedMap String Value :=
  .ofList [("attributes", .map (textEntries sampleAttributes)), ("source_id", .text "catalog")]

theorem isSound_sampleAttributes :
    IsSound Time.Iso8601.read (textEntries sampleAttributes) (sourceValue sampleData) where
  names := by
    rintro entry hentry
    obtain ⟨given, -, rfl⟩ := List.mem_map.mp hentry
    exact ⟨given.1, rfl⟩
  dates name value hmem hdated s hs := by
    have hentries : textEntries sampleAttributes = [(.text "title", .text "Roads"),
      (.text "modified", .list [.text "2024-02-29T12:00:00Z", .date ⟨2024, 3, 1, rfl⟩, .null])] := rfl
    rcases (by simpa [hentries] using hmem) with ⟨rfl, rfl⟩ | ⟨rfl, rfl⟩
    · exact absurd hdated (by decide)
    · obtain rfl : s = "2024-02-29T12:00:00Z" := by simpa [wrap] using hs
      exact succeeds_of_faultOf? (by decide +kernel)
  source := by decide

end GeoMetadata.Record
