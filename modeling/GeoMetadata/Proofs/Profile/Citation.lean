import GeoMetadata.Proofs.Profile.Elements
import GeoMetadata.Proofs.Profile.Values

/-!
# The citation of a resource

The section on the citation writes the dates and the identifiers in rounds, and what a record does
not have takes no index.  So the date elements of a document are those of the dates of the record,
each with the code and the text of its own kind, and the identifiers are those of the record and,
after them, that of its source (`showsCitation_documentOf`).

A record has a date of some kind if the first value of its attribute is a date (`givenKinds`).  Its
element has the index that it has among these, and not among all kinds.  The date of creation is
written a second time, as that of the edition, and it has a text there because it has one among the
dates.

The elements are told apart by their names below the citation.  What is seen from one of them is
what its own part of the section writes (`seenFrom_date`, `seenFrom_editionDate`,
`seenFrom_identifier`), and no other section writes below the citation.
-/

namespace GeoMetadata.Profile

open Document (Trail Placement seenFrom place elements roundAt)

variable {source : Source} {tracker : Assignments} {given : List Contribution}

/-! ## The elements -/

/-- Where the citation is. -/
def citationTrail : Trail :=
  [("identificationInfo", 1), ("MD_DataIdentification", 1), ("citation", 1), ("CI_Citation", 1)]

/-- The elements of some name in the citation of a document. -/
def citationElements (document : Node) (name : String) : List Node :=
  document.childrenAt (Trail.address citationTrail) name

/-- The date element with this index: a date text, and the code and the text of its kind. -/
def citationDateElement (index : Int) (kind : DateKind) (text : String) : Node :=
  holder "date" index ⟨"CI_Date", 1, none, .empty,
    [holder "date" 1 (textElement "gco:DateTime" text),
      holder "dateType" 1 ⟨"CI_DateTypeCode", 1, some kind.label,
        .ofList [("codeListValue", kind.code), ("codeList", dateTypeList)], []⟩]⟩

/-- The date of the edition. -/
def editionDateElement (text : String) : Node :=
  holder "editionDate" 1 (textElement "gco:DateTime" text)

/-- The identifier element with this index. -/
def citationIdentifierElement (index : Int) (code codeSpace : String) : Node :=
  holder "identifier" index (identifierElement code codeSpace)

/-- The identifier of the document itself. -/
def fileIdentifierElement (text : String) : Node :=
  holder "fileIdentifier" 1 (textElement "gco:CharacterString" text)

/-! ## What is seen from the elements -/

/-- What is written about a date, as seen from its element. -/
def citationDatePlacements (date : DateKind × String) : List Placement :=
  [(downTo ["CI_Date", "date", "gco:DateTime"], date.2),
    (downTo ["CI_Date", "dateType", "CI_DateTypeCode"] ++ [.attr "codeListValue"], date.1.code),
    (downTo ["CI_Date", "dateType", "CI_DateTypeCode"] ++ [.attr "codeList"], dateTypeList),
    (downTo ["CI_Date", "dateType", "CI_DateTypeCode"], date.1.label)]

theorem placement_citationDateWrites (date : DateKind × String) (index : Nat) :
    (citationDateWrites index date.1 date.2).map Write.placement =
      (citationDatePlacements date).map fun p =>
        (elements (citationTrail ++ [(("date", index) : String × Nat)]) ++ p.1, p.2) := rfl

theorem placement_citationIdentifierWrites (identifier : String × String) (index : Nat) :
    (identifierWrites Layout.citationIdentifier index identifier.1 identifier.2).map
        Write.placement =
      (identifierPlacements [] identifier.1 identifier.2).map fun p =>
        (elements (citationTrail ++ [(("identifier", index) : String × Nat)]) ++ p.1, p.2) := rfl

section Parts

variable (title : String) (dates : List (DateKind × String)) (edition : Option String)
  (identifiers : List (String × String)) (n : Nat)

/-- What is written about a citation with these parts. -/
def citationParts : List Write :=
  [.only Layout.title title]
    ++ ((dates.zipIdx 1).flatMap fun entry => citationDateWrites entry.2 entry.1.1 entry.1.2)
    ++ optional Layout.editionDate edition
    ++ (identifiers.zipIdx 1).flatMap fun entry =>
      identifierWrites Layout.citationIdentifier entry.2 entry.1.1 entry.1.2

theorem seenFrom_date :
    seenFrom (citationTrail ++ [(("date", n) : String × Nat)])
        ((citationParts title dates edition identifiers).map Write.placement) =
      roundAt 1 (dates.map citationDatePlacements) n := by
  have hlater := (arranged_optional Layout.editionDate edition).append
    (arranged_citationIdentifiers identifiers) (by decide)
  rw [citationParts, List.append_assoc, List.append_assoc,
    seenFrom_between (arranged_title title).mem hlater.mem (by decide +kernel)]
  exact seenFrom_flatMap_zipIdx placement_citationDateWrites dates 1 n

theorem seenFrom_editionDate :
    seenFrom (citationTrail ++ [(("editionDate", n) : String × Nat)])
        ((citationParts title dates edition identifiers).map Write.placement) =
      roundAt 1 (edition.toList.map fun text => [(downTo ["gco:DateTime"], text)]) n := by
  have hearlier := (arranged_title title).append (arranged_citationDates dates) (by decide)
  rw [citationParts, List.append_assoc, seenFrom_between hearlier.mem
    (arranged_citationIdentifiers identifiers).mem (by decide +kernel)]
  exact seenFrom_optional (fun _ => rfl) edition n

theorem seenFrom_identifier :
    seenFrom (citationTrail ++ [(("identifier", n) : String × Nat)])
        ((citationParts title dates edition identifiers).map Write.placement) =
      roundAt 1
        (identifiers.map fun identifier => identifierPlacements [] identifier.1 identifier.2) n := by
  have hearlier := ((arranged_title title).append (arranged_citationDates dates)
    (by decide)).append (arranged_optional Layout.editionDate edition) (by decide)
  rw [citationParts, ← List.append_nil (List.flatMap _ (identifiers.zipIdx 1)),
    seenFrom_between hearlier.mem (arranged_nil []).mem (by decide +kernel)]
  exact seenFrom_flatMap_zipIdx placement_citationIdentifierWrites identifiers 1 n

end Parts

/-! ## The elements of a document -/

/-- The kinds of dates that a record has: those whose attribute has a date as its first value. -/
def givenKinds (record : Record) : List DateKind :=
  dateKinds.filter fun kind => (record.moment? kind.name).isSome

/-- The record has a date at the attribute, and the text is that of the date. -/
def HasDateText (record : Record) (name text : String) : Prop :=
  ∃ t, record.moment? name = some t ∧ dateText t = .ok text

/-- The dates of a record are those of the kinds that it has, in order. -/
theorem forall₂_citationDates {record : Record} {dates : List (DateKind × String)}
    (hdates : (citationDates record).mapM (fun date => do .ok (date.1, ← dateText date.2)) =
      (.ok dates : Except ConversionFault _)) :
    List.Forall₂ (fun kind date => date.1 = kind ∧ HasDateText record kind.name date.2)
      (givenKinds record) dates := by
  have hgiven := forall₂_filterMap
    (fun kind : DateKind => (record.moment? kind.name).map fun date => (kind, date)) dateKinds
  simp only [Option.isSome_map] at hgiven
  -- From the kinds to their dates, and from these to the texts of the dates.
  refine (forall₂_comp hgiven (mapM_eq_ok_iff.mp hdates)).imp fun kind date hdate => ?_
  obtain ⟨_, hkind, hdate⟩ := hdate
  obtain ⟨t, hmoment, rfl⟩ := Option.map_eq_some_iff.mp hkind
  obtain ⟨text, htext, hdate⟩ := bind_eq_ok_iff.mp hdate
  obtain rfl := Except.ok.inj hdate
  exact ⟨rfl, t, hmoment, htext⟩

/-- The node is the date element with this index for a date of this kind that the record has. -/
def ShowsDate (record : Record) (kind : DateKind) (index : Nat) (node : Node) : Prop :=
  ∃ text, HasDateText record kind.name text ∧ node = citationDateElement index kind text

/-- The name that is shown for the source of a record: the configured one, unless it is blank, or
else that in the record, unless it is blank. -/
def shownSourceName? (source : Source) : Option String :=
  (source.systemName.filter fun name => !Text.allBlank name)
    <|> (source.record.sourceId.filter fun name => !Text.allBlank name)

/-- The element with this index for the name of the source, if there is one. -/
def sourceNameElements (source : Source) (index : Int) : List Node :=
  (shownSourceName? source).toList.map fun name =>
    citationIdentifierElement index name "sourceSystemName"

theorem sourceName?_eq_shownSourceName? (source : Source) :
    sourceName? source = shownSourceName? source := by
  rw [sourceName?, shownSourceName?]
  cases source.systemName with
  | none => rfl
  | some name => cases hblank : Text.allBlank name <;> simp [isNamed, Option.filter_some, hblank]

/-- What a document has for the citation of a record: a date element for each of its dates, in
order, the date of its creation also as that of the edition, and the identifiers of the record, of
which the first is that of the document too, and of its source. -/
structure ShowsCitation (source : Source) (document : Node) : Prop where
  dates : List.Forall₂ (fun entry => ShowsDate source.record entry.1 entry.2)
    ((givenKinds source.record).zipIdx 1) (citationElements document "date")
  created : ∀ t, source.record.moment? Attribute.created = some t → ∃ text,
    dateText t = .ok text ∧
      citationElements document "editionDate" = [editionDateElement text]
  notCreated : source.record.moment? Attribute.created = none →
    citationElements document "editionDate" = []
  identified : ∀ identifier, source.record.string? Attribute.id = some identifier →
    document.childrenAt [] "fileIdentifier" =
        [fileIdentifierElement (formatIdentifier identifier)] ∧
      citationElements document "identifier" =
        [citationIdentifierElement 1 (formatIdentifier identifier) "UUID",
          citationIdentifierElement 2 (formatIdentifier identifier) "sourceSystemId"]
        ++ sourceNameElements source 3
  notIdentified : source.record.string? Attribute.id = none →
    document.childrenAt [] "fileIdentifier" = [fileIdentifierElement ""] ∧
      citationElements document "identifier" = sourceNameElements source 1

section Elements

variable {writes : List Write}

/-- The elements of a name in the citation are made of what its section writes. -/
theorem citationElements_documentOf (h : Composed source tracker (allWrites given))
    (hgiven : contributions source = .ok given) (hwrites : citationWrites source = .ok writes)
    {name : String} {rounds : List (List Placement)} (hrounds : [] ∉ rounds)
    (hseen : ∀ n, seenFrom (citationTrail ++ [((name, n) : String × Nat)])
      (writes.map Write.placement) = roundAt 1 rounds n) :
    citationElements (documentOf given) name =
      (rounds.zipIdx 1).map fun entry => place entry.1 (.leaf name entry.2) := by
  -- No other section writes anything below the citation, whatever the name.
  have helsewhere : ∀ template ∈ (sectionTemplates.take 9).flatten
      ++ (sectionTemplates.drop 10).flatten,
        ¬LeadsThrough (citationTrail.map Prod.fst) template := by
    decide +kernel
  refine childrenAt_documentOf_of_rounds h hgiven (by simp [citationTrail, resourceConstraints])
    hrounds fun n => ?_
  rw [← hseen n]
  refine @seenFrom_of_checked source given writes citationTrail name 9 _ _ rfl hgiven hwrites
    (fun template htemplate hleads => ?_) n
  exact helsewhere template htemplate ((List.prefix_append _ _).trans hleads)

theorem fileIdentifier_documentOf (h : Composed source tracker (allWrites given))
    (hgiven : contributions source = .ok given) :
    (documentOf given).childrenAt [] "fileIdentifier" = [fileIdentifierElement
      (formatIdentifier ((source.record.string? Attribute.id).getD ""))] := by
  have hseen (n : Nat) :=
    (@seenFrom_of_plain source given [] "fileIdentifier" 1 _ _ rfl hgiven (by decide +kernel) n).trans
      (@seenFrom_optional [] "fileIdentifier" _ (downTo ["gco:CharacterString"]) (fun _ => rfl)
        (some (formatIdentifier ((source.record.string? Attribute.id).getD ""))) n)
  exact childrenAt_documentOf_of_rounds h hgiven (by decide) (by simp) hseen

/-- The document has what the citation of the record is made of. -/
theorem showsCitation_documentOf (h : Composed source tracker (allWrites given))
    (hgiven : contributions source = .ok given) : ShowsCitation source (documentOf given) := by
  obtain ⟨writes, hwrites, -⟩ := exists_subset_of_checked (n := 9) rfl hgiven
  obtain ⟨dates, hdates, hparts⟩ := bind_eq_ok_iff.mp hwrites
  obtain ⟨edition, hedition, hparts⟩ := bind_eq_ok_iff.mp hparts
  obtain rfl : citationParts _ dates edition (citationIdentifiers source) = writes :=
    Except.ok.inj hparts
  have heditions : citationElements (documentOf given) "editionDate" =
      edition.toList.map editionDateElement := by
    rw [citationElements_documentOf h hgiven hwrites (by simp)
      (seenFrom_editionDate _ dates edition _)]
    cases edition <;> rfl
  have hidentifiers : citationElements (documentOf given) "identifier" =
      ((citationIdentifiers source).zipIdx 1).map fun entry =>
        citationIdentifierElement entry.2 entry.1.1 entry.1.2 := by
    rw [citationElements_documentOf h hgiven hwrites (by simp [identifierPlacements])
      (seenFrom_identifier _ dates edition _), List.zipIdx_map, List.map_map]
    rfl
  have hfile := fileIdentifier_documentOf h hgiven
  refine ⟨?dates, fun t ht => ?created, fun hnone => ?notCreated,
    fun identifier hidentifier => ?identified, fun hnone => ?notIdentified⟩
  case dates =>
    rw [citationElements_documentOf h hgiven hwrites (by simp [citationDatePlacements])
      (seenFrom_date _ dates edition _), List.zipIdx_map, List.map_map, List.forall₂_map_right_iff]
    refine (forall₂_zipIdx (forall₂_citationDates hdates) 1).imp fun entry date hdate => ?_
    obtain ⟨⟨hkind, htext⟩, hindex⟩ := hdate
    refine ⟨date.1.2, htext, ?_⟩
    rw [hindex, ← hkind]
    rfl
  case created =>
    rw [ht] at hedition
    obtain ⟨text, htext, hsome⟩ := map_eq_ok_iff.mp hedition
    refine ⟨text, htext, ?_⟩
    rw [heditions, ← hsome]
    rfl
  case notCreated =>
    rw [hnone] at hedition
    obtain rfl := Except.ok.inj hedition
    exact heditions
  case identified =>
    rw [hidentifier] at hfile
    refine ⟨hfile, ?_⟩
    rw [hidentifiers, citationIdentifiers, hidentifier, sourceName?_eq_shownSourceName?,
      sourceNameElements]
    cases shownSourceName? source <;> rfl
  case notIdentified =>
    rw [hnone] at hfile
    refine ⟨hfile, ?_⟩
    rw [hidentifiers, citationIdentifiers, hnone, sourceName?_eq_shownSourceName?,
      sourceNameElements]
    cases shownSourceName? source <;> rfl

end Elements

/-- The citation has a date element for each date of the record, with the code and the text of its
kind, the date of creation as that of the edition, and the identifiers of the record and of its
source; the identifier of the document is that of the record. -/
theorem citation_shows_dates_and_identifiers (hok : assignments source = .ok tracker) :
    ∃ document, Converter.assemble tracker = .ok document ∧ ShowsCitation source document := by
  obtain ⟨given, hgiven, hcomposed⟩ := exists_composed hok
  exact ⟨documentOf given, hcomposed.placed.assembled, showsCitation_documentOf hcomposed hgiven⟩

/-- The first moment of a year. -/
def firstOf (year : Nat) (h : Time.isDay year 1 1 = true) : Time.DateTime :=
  ⟨⟨year, 1, 1, h⟩, .midnight, none⟩

/-- A record whose date of creation stands after a null, and whose modification is no date. -/
def citedSource : Source :=
  { sourceOf [(Attribute.id, [.text "A-1"]), (Attribute.modified, [.text "2015"]),
      (Attribute.created, [.null, .moment (firstOf 2015 rfl)]),
      (Attribute.expiration, [.moment (firstOf 2016 rfl)])] with
    systemName := some "Archive" }

theorem HasDateText.eq {record : Record} {name text other : String} {t : Time.DateTime}
    (htext : HasDateText record name text) (ht : record.moment? name = some t)
    (hother : dateText t = .ok other) : text = other := by
  obtain ⟨u, hu, htext⟩ := htext
  obtain rfl := Option.some.inj (ht.symm.trans hu)
  exact Except.ok.inj (htext.symm.trans hother)

theorem cited_citation_shows_dates_and_identifiers :
    ∃ tracker document, assignments citedSource = .ok tracker ∧
      Converter.assemble tracker = .ok document ∧
      citationElements document "date" =
        [citationDateElement 1 ⟨Attribute.created, "creation", "Creation"⟩
            "2015-01-01T00:00:00.000Z",
          citationDateElement 2 ⟨Attribute.expiration, "expiry", "Expiry"⟩
            "2016-01-01T00:00:00.000Z"] ∧
      citationElements document "editionDate" = [editionDateElement "2015-01-01T00:00:00.000Z"] ∧
      citationElements document "identifier" =
        [citationIdentifierElement 1 "A-1" "UUID",
          citationIdentifierElement 2 "A-1" "sourceSystemId",
          citationIdentifierElement 3 "Archive" "sourceSystemName"] ∧
      document.childrenAt [] "fileIdentifier" = [fileIdentifierElement "A-1"] := by
  obtain ⟨tracker, hok⟩ : Succeeds (assignments citedSource) :=
    succeeds_of_faultOf? (by decide +kernel)
  obtain ⟨document, hassemble, hshows⟩ := citation_shows_dates_and_identifiers hok
  have hkinds : (givenKinds citedSource.record).zipIdx 1 =
      [(⟨Attribute.created, "creation", "Creation"⟩, 1),
        (⟨Attribute.expiration, "expiry", "Expiry"⟩, 2)] := by
    decide +kernel
  have hdates := hshows.dates
  rw [hkinds] at hdates
  generalize hnodes : citationElements document "date" = nodes at hdates
  rcases hdates with _ | ⟨⟨first, hfirst, rfl⟩, _ | ⟨⟨second, hsecond, rfl⟩, _ | _⟩⟩
  have hcreated : citedSource.record.moment? Attribute.created = some (firstOf 2015 rfl) := rfl
  have hexpiration : citedSource.record.moment? Attribute.expiration =
    some (firstOf 2016 rfl) := rfl
  have hcreatedText : dateText (firstOf 2015 rfl) = .ok "2015-01-01T00:00:00.000Z" := rfl
  have hexpirationText : dateText (firstOf 2016 rfl) = .ok "2016-01-01T00:00:00.000Z" := rfl
  obtain ⟨edition, heditionText, hedition⟩ := hshows.created _ hcreated
  obtain ⟨hfile, hidentifiers⟩ := hshows.identified "A-1" rfl
  have hname : shownSourceName? citedSource = some "Archive" := by decide +kernel
  refine ⟨tracker, document, hok, hassemble, ?_, ?_, ?_, hfile⟩
  · rw [hnodes, hfirst.eq hcreated hcreatedText, hsecond.eq hexpiration hexpirationText]
    rfl
  · rw [hedition, Except.ok.inj (heditionText.symm.trans hcreatedText)]
  · rw [hidentifiers, sourceNameElements, hname]
    rfl

end GeoMetadata.Profile
