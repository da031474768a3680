import GeoMetadata.Proofs.Profile.GeographicElements

/-!
# Elements that are written in passes

The reference systems, the countries and the languages of a document are written in passes: one for
the codes of all elements, and others for what belongs to each code.

```text
reference systems    the codes, then the authorities
countries            the codes, then the code space
languages            the code list, then the codes, then the names
```

Every pass goes over a list that is made from the same texts, so that the passes agree on the
indices and an element has what belongs to one text.  For the languages and the countries the list
is that of the texts.  For the reference systems it is what they are read as, with those left out
that name none, before anything is numbered (`forall₂_referenceSystems`): a text names a system if
it has one colon, with text on both sides (`isSome_referenceSystem?_iff`).
-/

namespace GeoMetadata.Profile

open Document (Trail Placement seenFrom place elements roundAt)

variable {source : Source} {tracker : Assignments} {given : List Contribution}
  {text authority code : String}

/-! ## Reference systems -/

/-- The text names a reference system: there is one colon in it, and text on both sides. -/
def NamesSystem (text : String) : Prop :=
  text.toList.count ':' = 1 ∧ text.toList.head? ≠ some ':' ∧ text.toList.getLast? ≠ some ':'

instance (text : String) : Decidable (NamesSystem text) := inferInstanceAs (Decidable (_ ∧ _))

/-- If a text has one colon, then it names a reference system exactly if neither side is empty. -/
theorem namesSystem_iff {before after : List Char} (htext : text.toList = before ++ ':' :: after)
    (hbefore : ':' ∉ before) (hafter : ':' ∉ after) :
    NamesSystem text ↔ before ≠ [] ∧ after ≠ [] := by
  have hcount : text.toList.count ':' = 1 := by
    rw [htext, List.count_append, List.count_cons_self, List.count_eq_zero.mpr hbefore,
      List.count_eq_zero.mpr hafter]
  have hhead : text.toList.head? = some ':' ↔ before = [] := by
    rw [htext]
    cases before with
    | nil => simp
    | cons c rest => simpa using (List.ne_of_not_mem_cons hbefore).symm
  have hlast : text.toList.getLast? = some ':' ↔ after = [] := by
    rw [htext]
    rcases List.eq_nil_or_concat' after with rfl | ⟨rest, c, rfl⟩
    · simp
    · have hc : c ≠ ':' := fun h => hafter (h ▸ List.mem_append_right _ List.mem_cons_self)
      rw [← List.cons_append, ← List.append_assoc, List.getLast?_concat]
      simpa using hc
  rw [NamesSystem, and_iff_right hcount]
  exact and_congr hhead.not hlast.not

/-- A reference system is read from its authority and its code with a colon between them. -/
theorem referenceSystem?_eq_some_iff : referenceSystem? text = some (authority, code) ↔
    text.toList = authority.toList ++ ':' :: code.toList ∧
      ':' ∉ authority.toList ∧ ':' ∉ code.toList ∧ authority ≠ "" ∧ code ≠ "" := by
  constructor
  · intro h
    unfold referenceSystem? at h
    split at h
    · rename_i before after hpieces
      split at h
      · cases h
      · rename_i hsome
        rw [Option.some.injEq, Prod.mk.injEq] at h
        obtain ⟨rfl, rfl⟩ := h
        obtain ⟨htext, hbefore, hafter⟩ := Text.splitAt_eq_pair_iff.mp hpieces
        rw [not_or] at hsome
        simpa using ⟨htext, hbefore, hafter, hsome⟩
    · cases h
  · rintro ⟨htext, hauthorityFree, hcodeFree, hauthority, hcode⟩
    rw [referenceSystem?, Text.splitAt_eq_pair_iff.mpr ⟨htext, hauthorityFree, hcodeFree⟩]
    simp [hauthority, hcode]

theorem isSome_referenceSystem?_iff : (referenceSystem? text).isSome ↔ NamesSystem text := by
  rw [Option.isSome_iff_exists]
  constructor
  · rintro ⟨⟨authority, code⟩, h⟩
    obtain ⟨htext, hauthorityFree, hcodeFree, hauthority, hcode⟩ :=
      referenceSystem?_eq_some_iff.mp h
    exact (namesSystem_iff htext hauthorityFree hcodeFree).mpr
      ⟨String.toList_eq_nil_iff.not.mpr hauthority, String.toList_eq_nil_iff.not.mpr hcode⟩
  · intro h
    -- The text is parted at its only colon, and the two sides are read.
    obtain ⟨before, after, htext, hbefore, hafter⟩ := Text.exists_of_count_eq_one h.1
    obtain ⟨hbeforeSome, hafterSome⟩ := (namesSystem_iff htext hbefore hafter).mp h
    refine ⟨(String.ofList before, String.ofList after), referenceSystem?_eq_some_iff.mpr ?_⟩
    simpa using ⟨htext, hbefore, hafter, hbeforeSome, hafterSome⟩

/-- The reference systems of a record are those that its texts name, in order. -/
theorem forall₂_referenceSystems (texts : List String) :
    List.Forall₂ (fun text system => system.1 ++ ":" ++ system.2 = text)
      (texts.filter NamesSystem) (texts.filterMap referenceSystem?) := by
  have hfilter : texts.filter NamesSystem =
      texts.filter fun text => (referenceSystem? text).isSome :=
    List.filter_congr fun text _ => by
      rw [Bool.eq_iff_iff, decide_eq_true_iff, isSome_referenceSystem?_iff]
  rw [hfilter]
  refine (forall₂_filterMap referenceSystem? texts).imp fun text system hsystem => ?_
  rw [← String.toList_inj, (referenceSystem?_eq_some_iff.mp hsystem).1]
  simp

/-- The element with this index for a reference system. -/
def referenceSystemElement (index : Int) (authority code : String) : Node :=
  holder "referenceSystemInfo" index (holder "MD_ReferenceSystem" 1
    (holder "referenceSystemIdentifier" 1 (identifierElement code authority)))

/-- The reference systems of a document. -/
def referenceSystemElements (document : Node) : List Node :=
  document.childrenAt [] "referenceSystemInfo"

theorem referenceSystemElements_documentOf (h : Composed source tracker (allWrites given))
    (hgiven : contributions source = .ok given) :
    referenceSystemElements (documentOf given) =
      (((source.record.strings Attribute.crsCode).filterMap referenceSystem?).zipIdx 1).map
        fun entry => referenceSystemElement entry.2 entry.1.1 entry.1.2 := by
  have hseen (n : Nat) :=
    (@seenFrom_of_plain source given [] "referenceSystemInfo" 8 _ _ rfl hgiven
      (by decide +kernel) n).trans
    (@seenFrom_identifierPasses [] "referenceSystemInfo" _ Layout.referenceSystem
      ["MD_ReferenceSystem", "referenceSystemIdentifier"] (fun _ _ => rfl) (fun _ _ => rfl)
      ((source.record.strings Attribute.crsCode).filterMap referenceSystem?) Prod.snd Prod.fst 1 n)
  have helements := childrenAt_documentOf_of_rounds h hgiven (by decide)
    (by simp [identifierPlacements]) hseen
  rw [List.zipIdx_map, List.map_map] at helements
  exact helements

/-! ## Languages -/

/-- Where the languages of the resource are. -/
def languageTrail : Trail := [("identificationInfo", 1), ("MD_DataIdentification", 1)]

/-- The element with this index for a language: the code list, the code and the name. -/
def languageElement (index : Int) (code : String) : Node :=
  holder "language" index ⟨"LanguageCode", 1, some (languageName code),
    .ofList [("codeList", languageList), ("codeListValue", code)], []⟩

/-- The languages of the resource in a document. -/
def languageElements (document : Node) : List Node :=
  document.childrenAt (Trail.address languageTrail) "language"

/-- What is written about a language, as seen from its element. -/
def languagePlacements (code : String) : List Placement :=
  [(downTo ["LanguageCode"] ++ [.attr "codeList"], languageList),
    (downTo ["LanguageCode"] ++ [.attr "codeListValue"], code),
    (downTo ["LanguageCode"], languageName code)]

theorem seenFrom_resourceLanguageWrites (n : Nat) :
    seenFrom (languageTrail ++ [(("language", n) : String × Nat)])
        ((resourceLanguageWrites source).map Write.placement) =
      roundAt 1 ((resourceLanguages source).map languagePlacements) n := by
  have hlists := @seenFrom_eachFrom languageTrail "language" String
    Layout.resourceLanguage.codeList (downTo ["LanguageCode"] ++ [.attr "codeList"])
    (fun _ _ => rfl) (resourceLanguages source) (fun _ => languageList) 1 n
  have hcodes := @seenFrom_eachFrom languageTrail "language" String
    Layout.resourceLanguage.codeListValue (downTo ["LanguageCode"] ++ [.attr "codeListValue"])
    (fun _ _ => rfl) (resourceLanguages source) id 1 n
  have hnames := @seenFrom_eachFrom languageTrail "language" String
    Layout.resourceLanguage.text (downTo ["LanguageCode"])
    (fun _ _ => rfl) (resourceLanguages source) languageName 1 n
  rw [List.map_id] at hcodes
  simp only [resourceLanguageWrites, each, List.map_append, Document.seenFrom_append]
  rw [hlists, hcodes, hnames, Document.roundAt_map_append, Document.roundAt_map_append]
  rfl

theorem languageElements_documentOf (h : Composed source tracker (allWrites given))
    (hgiven : contributions source = .ok given) :
    languageElements (documentOf given) =
      ((resourceLanguages source).zipIdx 1).map fun entry => languageElement entry.2 entry.1 := by
  have hseen (n : Nat) :=
    (@seenFrom_of_plain source given languageTrail "language" 16 _ _ rfl hgiven
      (by decide +kernel) n).trans (seenFrom_resourceLanguageWrites n)
  rw [languageElements, childrenAt_documentOf_of_rounds h hgiven (by decide)
    (by simp [languagePlacements]) hseen, List.zipIdx_map, List.map_map]
  rfl

/-! ## The document -/

/-- The node is the element with this index for the reference system that the text names. -/
def ShowsSystem (text : String) (index : Nat) (node : Node) : Prop :=
  ∃ authority code, authority ++ ":" ++ code = text ∧
    node = referenceSystemElement index authority code

/-- The elements of a document that are written in passes have what belongs to one text each: the
reference systems, the countries, which are the first geographic elements, and the languages, of
which there is the default one if the record has none. -/
structure ShowsPasses (source : Source) (document : Node) : Prop where
  systems : List.Forall₂ (fun entry => ShowsSystem entry.1 entry.2)
    (((source.record.strings Attribute.crsCode).filter NamesSystem).zipIdx 1)
    (referenceSystemElements document)
  countries : ((source.record.strings Attribute.countryCode).zipIdx 1).map
    (fun entry => countryElement entry.2 entry.1) <+: geographicElementsOf document
  languages : source.record.strings Attribute.language ≠ [] →
    languageElements document = ((source.record.strings Attribute.language).zipIdx 1).map
      fun entry => languageElement entry.2 entry.1
  defaultLanguage : source.record.strings Attribute.language = [] →
    languageElements document = [languageElement 1 source.settings.defaultLanguage]

/-- What several passes write about one element belongs together. -/
theorem passes_stay_aligned (hok : assignments source = .ok tracker) :
    ∃ document, Converter.assemble tracker = .ok document ∧ ShowsPasses source document := by
  obtain ⟨given, hgiven, h⟩ := exists_composed hok
  refine ⟨documentOf given, h.placed.assembled, ?systems, ?countries, fun hsome => ?languages,
    fun hnone => ?defaultLanguage⟩
  case systems =>
    rw [referenceSystemElements_documentOf h hgiven, List.forall₂_map_right_iff]
    refine (forall₂_zipIdx (forall₂_referenceSystems _) 1).imp fun entry system hsystem => ?_
    obtain ⟨htext, hindex⟩ := hsystem
    exact ⟨system.1.1, system.1.2, htext, by rw [hindex]⟩
  case countries =>
    rw [geographicElementsOf_documentOf h hgiven]
    exact List.prefix_append _ _
  case languages =>
    obtain ⟨first, rest, hlanguages⟩ := List.exists_cons_of_ne_nil hsome
    rw [languageElements_documentOf h hgiven, resourceLanguages, hlanguages]
  case defaultLanguage =>
    rw [languageElements_documentOf h hgiven, resourceLanguages, hnone]
    rfl

/-- A record with texts that name no reference system, and values that are no texts. -/
def listedSource : Source :=
  sourceOf
    [(Attribute.crsCode, [.text "EPSG:4326", .int 3, .text "EPSG", .text "EPSG:4326:1",
        .text ":4326", .text "OGC:CRS84"]),
      (Attribute.countryCode, [.text "GBR", .null, .int 1, .text "FRA"]),
      (Attribute.language, [.int 2, .text "eng", .text "fra"])]

theorem listed_passes_stay_aligned :
    ∃ tracker document, assignments listedSource = .ok tracker ∧
      Converter.assemble tracker = .ok document ∧
      (∃ first second, ShowsSystem "EPSG:4326" 1 first ∧ ShowsSystem "OGC:CRS84" 2 second ∧
        referenceSystemElements document = [first, second]) ∧
      [countryElement 1 "GBR", countryElement 2 "FRA"] <+: geographicElementsOf document ∧
      languageElements document = [languageElement 1 "eng", languageElement 2 "fra"] := by
  obtain ⟨tracker, hok⟩ : Succeeds (assignments listedSource) :=
    succeeds_of_faultOf? (by decide +kernel)
  obtain ⟨document, hassemble, hshows⟩ := passes_stay_aligned hok
  have hnamed : ((listedSource.record.strings Attribute.crsCode).filter NamesSystem).zipIdx 1 =
      [("EPSG:4326", 1), ("OGC:CRS84", 2)] := by
    decide +kernel
  have hsystems := hshows.systems
  rw [hnamed] at hsystems
  generalize hnodes : referenceSystemElements document = nodes at hsystems
  rcases hsystems with _ | ⟨hfirst, _ | ⟨hsecond, _ | _⟩⟩
  exact ⟨tracker, document, hok, hassemble, ⟨_, _, hfirst, hsecond, hnodes⟩, hshows.countries,
    hshows.languages (by decide +kernel)⟩

end GeoMetadata.Profile
