import GeoMetadata.Proofs.Profile.Convertible
import GeoMetadata.Proofs.Security.Survivors

/-!
# Which code a record is resolved to

A chain of resolvers gives the code that its first successful member finds.  Each member is
described by what stands in the record: the first text of an attribute, and a code of a vocabulary
that this text means.  For the government the text of the attribute itself means the code that it
survives with among the entries of the mapping (`IsMapped`), and the text of the overall
classification means, but for case, a fine code that turns into one of the government's
(`IsCrosswalked`).  In the fine vocabulary either text means the code that it is but for case
(`IsFine`).

A vocabulary has one label for each code, and no two of its codes differ in case alone, so at most
one code fits each description.
-/

namespace GeoMetadata

open Profile
open SecurityMapping (Survives pairOf?)

/-! ## Records and tables -/

/-- The first value of an attribute, apart from nulls, is a text. -/
def Record.HasFirstText (record : Record) (attr text : String) : Prop :=
  ∃ nulls rest, record.attributes.get? attr = some (nulls ++ .text text :: rest) ∧
    ∀ value ∈ nulls, value = .null

theorem Value.isNull_iff {value : Value} : value.isNull = true ↔ value = .null := by
  cases value <;> simp [Value.isNull]

theorem Value.text?_eq_some_iff {value : Value} {text : String} :
    value.text? = some text ↔ value = .text text := by
  cases value <;> simp [Value.text?]

theorem Record.string?_eq_some_iff {record : Record} {attr text : String} :
    record.string? attr = some text ↔ record.HasFirstText attr text := by
  have hvalue : record.string? attr = some text ↔ record.value? attr = some (.text text) := by
    rw [string?, Option.bind_eq_some_iff]
    simp only [Value.text?_eq_some_iff, exists_eq_right]
  rw [hvalue, value?, values, List.head?_filter, List.find?_eq_some_iff_append]
  cases hget : record.attributes.get? attr with
  | none => simp [HasFirstText, hget]
  | some values =>
      simp only [HasFirstText, hget, Option.getD_some, Option.some.injEq, Bool.not_not,
        Value.isNull_iff]
      constructor
      · rintro ⟨-, nulls, rest, rfl, hnulls⟩
        exact ⟨nulls, rest, rfl, hnulls⟩
      · rintro ⟨nulls, rest, rfl, hnulls⟩
        exact ⟨rfl, nulls, rest, rfl, hnulls⟩

namespace Classification

variable {record : Record} {attr : String} {mapping : SecurityMapping} {entries : List String}
  {code : ClassificationCode}

theorem foldEq_of_findIgnoringCase? {table : List (String × String)} {text : String}
    {entry : String × String} (h : findIgnoringCase? table text = some entry) :
    Text.foldEq text entry.1 = true := by
  rw [findIgnoringCase?] at h
  have hfound := List.find?_some h
  exact hfound

/-- A text is found in a table whose keys differ in more than case exactly as one of the keys. -/
theorem findIgnoringCase?_eq_some_iff {table : List (String × String)} {text : String}
    {entry : String × String} (hkeys : (table.map fun entry => Text.asciiFold entry.1).Nodup) :
    findIgnoringCase? table text = some entry ↔ entry ∈ table ∧ Text.foldEq text entry.1 = true := by
  constructor
  · intro h
    exact ⟨List.mem_of_find?_eq_some h, foldEq_of_findIgnoringCase? h⟩
  · rintro ⟨hmem, hfold⟩
    obtain ⟨found, hfound⟩ : ∃ found, findIgnoringCase? table text = some found :=
      Option.isSome_iff_exists.mp (List.find?_isSome.mpr ⟨entry, hmem, hfold⟩)
    have hfoundFold := foldEq_of_findIgnoringCase? hfound
    rw [Text.foldEq, beq_iff_eq] at hfold hfoundFold
    have heq : found = entry := List.inj_on_of_nodup_map hkeys
      (List.mem_of_find?_eq_some hfound) hmem (hfoundFold.symm.trans hfold)
    rw [hfound, heq]

/-! ## Vocabularies -/

/-- The code is one of a vocabulary, in its own spelling and with its own label. -/
structure IsOf (codeList : String) (labels : List (String × String)) (code : ClassificationCode) :
    Prop where
  codeList : code.codeList = codeList
  label : (code.value, code.label) ∈ labels

theorem eq_mk_iff {codeList : String} {labels : List (String × String)} {value : String} :
    IsOf codeList labels code ∧ code.value = value ↔
      ∃ label, (value, label) ∈ labels ∧ ⟨codeList, value, label⟩ = code := by
  constructor
  · rintro ⟨⟨rfl, hlabel⟩, rfl⟩
    exact ⟨code.label, hlabel, rfl⟩
  · rintro ⟨label, hlabel, rfl⟩
    exact ⟨⟨rfl, hlabel⟩, rfl⟩

theorem governmentCode?_eq_some_iff {value : String} :
    governmentCode? value = some code ↔
      IsOf governmentList governmentLabels code ∧ code.value = value := by
  have hlabels : (governmentLabels.map Prod.fst).Nodup := by decide
  rw [governmentCode?, Option.map_eq_some_iff, eq_mk_iff]
  simp only [entryValue?_eq_some_iff hlabels]

theorem fineCode?_eq_some_iff {text : String} :
    fineCode? text = some code ↔
      IsOf fineList fineLabels code ∧ Text.foldEq text code.value = true := by
  have hlabels : (fineLabels.map fun entry => Text.asciiFold entry.1).Nodup := by decide
  simp only [fineCode?, Option.map_eq_some_iff, findIgnoringCase?_eq_some_iff hlabels]
  constructor
  · rintro ⟨entry, ⟨hmem, hfold⟩, rfl⟩
    exact ⟨⟨rfl, hmem⟩, hfold⟩
  · rintro ⟨⟨hlist, hmem⟩, hfold⟩
    exact ⟨(code.value, code.label), ⟨hmem, hfold⟩, by rw [← hlist]⟩

/-! ## Resolvers -/

/-- The code is one of the government's, and the attribute's first text survives with it among the
pairs of the entries. -/
def IsMapped (entries : List String) (record : Record) (attr : String) (code : ClassificationCode) :
    Prop :=
  IsOf governmentList governmentLabels code ∧
    ∃ text, record.HasFirstText attr text ∧
      Survives (entries.filterMap pairOf?) (code.value, text)

/-- The code is the one of the government's that the overall classification turns into. -/
def IsCrosswalked (record : Record) (code : ClassificationCode) : Prop :=
  IsOf governmentList governmentLabels code ∧
    ∃ text fine, record.HasFirstText Attribute.classification text ∧
      (fine, code.value) ∈ governmentOfFine ∧ Text.foldEq text fine = true

/-- The code is the fine one that the attribute's first text is but for case. -/
def IsFine (record : Record) (attr : String) (code : ClassificationCode) : Prop :=
  IsOf fineList fineLabels code ∧
    ∃ text, record.HasFirstText attr text ∧ Text.foldEq text code.value = true

theorem governmentFrom?_eq_some_iff :
    governmentFrom? attr (.ofList entries) record = some code ↔ IsMapped entries record attr code := by
  simp only [governmentFrom?, IsMapped, Option.bind_eq_some_iff, Record.string?_eq_some_iff,
    SecurityMapping.codeOf?_eq_some_iff, SecurityMapping.mem_pairs_ofList,
    governmentCode?_eq_some_iff]
  constructor
  · rintro ⟨_, ⟨text, htext, hpair⟩, hcode, rfl⟩
    exact ⟨hcode, text, htext, hpair⟩
  · rintro ⟨hcode, text, htext, hpair⟩
    exact ⟨_, ⟨text, htext, hpair⟩, hcode, rfl⟩

theorem governmentOverall?_eq_some_iff :
    governmentOverall? record = some code ↔ IsCrosswalked record code := by
  have hkeys : (governmentOfFine.map fun entry => Text.asciiFold entry.1).Nodup := by decide
  simp only [governmentOverall?, IsCrosswalked, Option.bind_eq_some_iff,
    Record.string?_eq_some_iff, findIgnoringCase?_eq_some_iff hkeys, governmentCode?_eq_some_iff]
  constructor
  · rintro ⟨entry, ⟨text, htext, hmem, hfold⟩, hcode, hvalue⟩
    exact ⟨hcode, text, entry.1, htext, hvalue ▸ hmem, hfold⟩
  · rintro ⟨hcode, text, fine, htext, hmem, hfold⟩
    exact ⟨(fine, code.value), ⟨text, htext, hmem, hfold⟩, hcode, rfl⟩

theorem fineFrom?_eq_some_iff : fineFrom? attr record = some code ↔ IsFine record attr code := by
  simp only [fineFrom?, IsFine, Option.bind_eq_some_iff, Record.string?_eq_some_iff,
    fineCode?_eq_some_iff]
  constructor
  · rintro ⟨text, htext, hcode, hfold⟩
    exact ⟨hcode, text, htext, hfold⟩
  · rintro ⟨hcode, text, htext, hfold⟩
    exact ⟨text, htext, hcode, hfold⟩

/-! ## Chains -/

/-- Of two resolvers the second is asked only if the first finds nothing. -/
theorem firstResolved?_pair_eq_some_iff {first second : Resolver} :
    firstResolved? [first, second] record = some code ↔
      first record = some code ∨ (∀ other, first record ≠ some other) ∧ second record = some code := by
  rw [firstResolved?, List.findSome?_cons]
  cases first record <;> simp

/-- A chain finds only what its members find. -/
theorem exists_of_firstResolved? {resolvers : List Resolver}
    (h : firstResolved? resolvers record = some code) :
    ∃ resolve ∈ resolvers, resolve record = some code := List.exists_of_findSome?_eq_some h

theorem isOf_of_government? (h : government? attr mapping record = some code) :
    IsOf governmentList governmentLabels code := by
  obtain ⟨resolve, hmem, hresolve⟩ := exists_of_firstResolved? h
  obtain rfl | rfl : resolve = governmentFrom? attr mapping ∨ resolve = governmentOverall? := by
    simpa [governmentChain] using hmem
  · obtain ⟨value, -, hvalue⟩ := Option.bind_eq_some_iff.mp hresolve
    exact (governmentCode?_eq_some_iff.mp hvalue).1
  · exact (governmentOverall?_eq_some_iff.mp hresolve).1

theorem isOf_of_fine? (h : fine? attr record = some code) : IsOf fineList fineLabels code := by
  obtain ⟨resolve, hmem, hresolve⟩ := exists_of_firstResolved? h
  obtain rfl | rfl : resolve = fineFrom? attr ∨ resolve = fineOverall? := by
    simpa [fineChain] using hmem
  · exact (fineFrom?_eq_some_iff.mp hresolve).1
  · exact (fineFrom?_eq_some_iff.mp hresolve).1

/-! ## Writing -/

/-- The writes are those of a code of a vocabulary, or there are none. -/
def WritesCodeOf (codeList : String) (labels : List (String × String)) (places : Layout.CodePlaces)
    (writes : List Write) : Prop :=
  writes = [] ∨ ∃ code, IsOf codeList labels code ∧ writes = codeWrites places 1 code

/-- The writes are those of a code of the government's, of a fine one and of a caveat. -/
def WritesCodes (places : Layout.SecurityPlaces) (writes : List Write) : Prop :=
  ∃ government fine caveat, writes = government ++ fine ++ optional places.caveat caveat ∧
    WritesCodeOf governmentList governmentLabels places.classification government ∧
    WritesCodeOf fineList fineLabels places.originatorClassification fine

theorem writesCodeOf_elim {codeList : String} {labels : List (String × String)}
    {places : Layout.CodePlaces} {found : Option ClassificationCode}
    (h : ∀ code, found = some code → IsOf codeList labels code) :
    WritesCodeOf codeList labels places (found.elim [] (codeWrites places 1)) := by
  cases found with
  | none => exact .inl rfl
  | some code => exact .inr ⟨code, h code rfl, rfl⟩

theorem writesCodes_of_securityWrites {places : Layout.SecurityPlaces}
    {protection : Attribute.Protection} {source : Source} {writes : List Write}
    (h : securityWrites places protection source = .ok writes) : WritesCodes places writes := by
  obtain ⟨caveat, -, h⟩ := bind_eq_ok_iff.mp h
  obtain rfl := Except.ok.inj h
  exact ⟨_, _, caveat, rfl, writesCodeOf_elim fun _ => isOf_of_government?,
    writesCodeOf_elim fun _ => isOf_of_fine?⟩

/-- A record is resolved for the government to the mapped code of the attribute, if there is one,
and otherwise to the code that the overall classification turns into, if there is one; and in the
fine vocabulary to the code of the attribute, or else to that of the overall classification.
Whatever is mapped, the codes are those of the vocabularies, with their labels, and so are those
that are written. -/
theorem resolved_codes (entries : List String) (record : Record) (attr : String) :
    (∀ code, government? attr (.ofList entries) record = some code ↔
      IsMapped entries record attr code ∨
        (∀ other, ¬ IsMapped entries record attr other) ∧ IsCrosswalked record code) ∧
    (∀ code, fine? attr record = some code ↔
      IsFine record attr code ∨
        (∀ other, ¬ IsFine record attr other) ∧ IsFine record Attribute.classification code) ∧
    (∀ mapping code, government? attr mapping record = some code →
      IsOf governmentList governmentLabels code) ∧
    (∀ code, fine? attr record = some code → IsOf fineList fineLabels code) ∧
    ∀ places protection source writes, securityWrites places protection source = .ok writes →
      WritesCodes places writes := by
  refine ⟨fun code => ?_, fun code => ?_, fun _ _ => isOf_of_government?, fun _ => isOf_of_fine?,
    fun _ _ _ _ => writesCodes_of_securityWrites⟩
  · simp only [government?, governmentChain, firstResolved?_pair_eq_some_iff, ne_eq,
      governmentFrom?_eq_some_iff, governmentOverall?_eq_some_iff]
  · simp only [fine?, fineChain, fineOverall?, firstResolved?_pair_eq_some_iff, ne_eq,
      fineFrom?_eq_some_iff]

/-- A source with a mark of its own, before which a null stands. -/
def markedSource : Source :=
  { sourceOf
      [("mark", [.null, .text "S"]), (Attribute.classification, [.text "RESTRICTED"])] with
    mapping := .ofList ["official=S", "secret=T", "topSecret=S"] }

theorem sample_resolved_codes :
    (IsMapped ["official=S", "secret=T", "topSecret=S"] markedSource.record "mark"
        ⟨governmentList, "topSecret", "Top Secret"⟩ ∨
      (∀ other, ¬ IsMapped ["official=S", "secret=T", "topSecret=S"] markedSource.record "mark" other) ∧
        IsCrosswalked markedSource.record ⟨governmentList, "topSecret", "Top Secret"⟩) ∧
    IsOf governmentList governmentLabels ⟨governmentList, "topSecret", "Top Secret"⟩ ∧
    IsOf fineList fineLabels ⟨fineList, "restricted", "Restricted"⟩ ∧
    ∃ writes, WritesCodes Layout.metadataSecurity writes := by
  have hgovernment : government? "mark" (.ofList ["official=S", "secret=T", "topSecret=S"])
      markedSource.record = some ⟨governmentList, "topSecret", "Top Secret"⟩ := by decide
  have hfine : fine? "mark" markedSource.record = some ⟨fineList, "restricted", "Restricted"⟩ := by
    decide
  obtain ⟨writes, hwrites⟩ : Succeeds (securityWrites Layout.metadataSecurity
      ⟨"mark", "mark", "dissemination", "releasability"⟩ markedSource) :=
    succeeds_of_faultOf? (by decide)
  obtain ⟨hiff, -, hof, hfineOf, hwritten⟩ :=
    resolved_codes ["official=S", "secret=T", "topSecret=S"] markedSource.record "mark"
  exact ⟨(hiff _).mp hgovernment, hof _ _ hgovernment, hfineOf _ hfine, writes,
    hwritten _ _ _ _ hwrites⟩

end Classification

end GeoMetadata
