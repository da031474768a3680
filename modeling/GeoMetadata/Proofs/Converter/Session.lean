import GeoMetadata.Converter.Session
import GeoMetadata.Proofs.Profile.Dependence
import GeoMetadata.Proofs.Profile.Document
import GeoMetadata.Proofs.Security.Mapping

/-!
# What is left of earlier calls

A call either fails and leaves the converter as it was, or it succeeds and keeps the settings, and
then the mapping is the one from before or one that was given by entries (`perform_cases`).  So
after any calls the settings are the first ones, and the pairs of the mapping can be written as
entries (`isKept_afterCalls`).  A new converter with these entries finds the same codes of all
values, and the same conversions follow (`outcome_convert_eq`): of the earlier calls nothing is left
but the mapping and the name of the source system.
-/

namespace GeoMetadata.Converter

open Profile (readAttributes)

/-! ## One call -/

/-- Properties are applied as a whole or not at all. -/
theorem perform_refresh (properties : Properties) (converter : Converter) :
    (Call.refresh properties).perform converter =
      match converter.refresh properties.entries with
      | .ok reached => .ok none reached
      | .error fault => .error (.property fault) converter := by
  rw [Call.perform, refresh]
  cases htext : propertiesText properties.entries with
  | error fault => rfl
  | ok text =>
      dsimp only [bind, Except.bind]
      cases hempty : ((Value.field? properties.entries mappingProperty).getD .null).isEmpty with
      | true => rfl
      | false =>
          cases hentries : mappingEntries
              ((Value.field? properties.entries mappingProperty).getD .null) with
          | error fault => rfl
          | ok entries => rfl

/-- Converting a record reads the converter and leaves it. -/
theorem perform_convert (now : Time.DateTime) (gmlId : Nat → String) (record : Record)
    (converter : Converter) :
    (Call.convert now gmlId record).perform converter =
      match assignments (converter.source now gmlId record) with
      | .ok found => .ok (some found) converter
      | .error fault => .error (.conversion fault) converter := by
  show (attempt .conversion (assignments (converter.source now gmlId record)) >>= fun found =>
    pure (some found) : Step (Option Assignments)) converter = _
  cases assignments (converter.source now gmlId record) <;> rfl

/-- A call that does not fail keeps the settings, and sets the mapping only from entries. -/
theorem perform_cases (call : Call) (converter : Converter) :
    (∃ fault, call.perform converter = .error fault converter) ∨
      ∃ found reached, call.perform converter = .ok found reached ∧
        reached.settings = converter.settings ∧
        (reached.mapping = converter.mapping ∨ ∃ entries, reached.mapping = .ofList entries) := by
  cases call with
  | refresh properties =>
      rw [perform_refresh]
      cases hrefresh : converter.refresh properties.entries with
      | error fault => exact .inl ⟨.property fault, rfl⟩
      | ok reached =>
          refine .inr ⟨none, reached, rfl, ?_⟩
          obtain ⟨text, -, hrefresh⟩ := bind_eq_ok_iff.mp hrefresh
          dsimp only at hrefresh
          split at hrefresh
          · obtain rfl := Except.ok.inj hrefresh
            exact ⟨rfl, .inl rfl⟩
          · obtain ⟨entries, -, hrefresh⟩ := bind_eq_ok_iff.mp hrefresh
            obtain rfl := Except.ok.inj hrefresh
            exact ⟨rfl, .inr ⟨entries, rfl⟩⟩
  | setMapping values =>
      rw [Call.perform]
      cases SecurityMapping.entriesOf values with
      | error fault => exact .inl ⟨.property (.entry fault), rfl⟩
      | ok entries => exact .inr ⟨none, converter.withMapping entries, rfl, rfl, .inr ⟨entries, rfl⟩⟩
  | setSystemName name => exact .inr ⟨none, converter.withSystemName name, rfl, rfl, .inl rfl⟩
  | convert now gmlId record =>
      rw [perform_convert]
      cases assignments (converter.source now gmlId record) with
      | error fault => exact .inl ⟨.conversion fault, rfl⟩
      | ok found => exact .inr ⟨some found, converter, rfl, rfl, .inl rfl⟩

theorem next_convert (now : Time.DateTime) (gmlId : Nat → String) (record : Record)
    (converter : Converter) : (Call.convert now gmlId record).next converter = converter := by
  rw [Call.next, perform_convert]
  cases assignments (converter.source now gmlId record) <;> rfl

theorem next_eq_of_outcome_error {call : Call} {converter : Converter} {fault : CallFault}
    (hfails : call.outcome converter = .error fault) : call.next converter = converter := by
  rcases perform_cases call converter with ⟨fault, hfault⟩ | ⟨found, reached, hok, -⟩
  · rw [Call.next, hfault]
  · rw [Call.outcome, hok] at hfails
    nomatch hfails

/-! ## Calls in a row -/

/-- The converter has some settings, and its pairs can be written as entries. -/
structure IsKept (settings : Settings) (converter : Converter) : Prop where
  settings : converter.settings = settings
  spelled : ∀ pair ∈ converter.mapping.pairs, SecurityMapping.IsSpelled pair

variable {settings : Settings} {converter : Converter}

theorem isKept_ofSettings (settings : Settings) : IsKept settings (ofSettings settings) where
  settings := rfl
  spelled := SecurityMapping.isSpelled_ofList _

theorem isKept_next (h : IsKept settings converter) (call : Call) :
    IsKept settings (call.next converter) := by
  rcases perform_cases call converter with ⟨fault, hfails⟩ | ⟨found, reached, hok, hsettings, hmapping⟩
  · rw [Call.next, hfails]
    exact h
  · rw [Call.next, hok]
    refine ⟨hsettings.trans h.settings, ?_⟩
    rcases hmapping with hmapping | ⟨entries, hmapping⟩
    · show ∀ pair ∈ reached.mapping.pairs, _
      rw [hmapping]
      exact h.spelled
    · show ∀ pair ∈ reached.mapping.pairs, _
      rw [hmapping]
      exact SecurityMapping.isSpelled_ofList entries

theorem isKept_afterCalls (h : IsKept settings converter) (calls : List Call) :
    IsKept settings (converter.afterCalls calls) := by
  induction calls generalizing converter with
  | nil => exact h
  | cons call rest ih => exact ih (isKept_next h call)

/-! ## Conversions -/

/-- The settings with the mapping and the name of the source system that a converter has. -/
def settingsNow (settings : Settings) (converter : Converter) : Settings :=
  { settings with
    securityMappingList := converter.mapping.toList
    sourceSystemName := converter.systemName }

/-- Converters with the same codes of values and the same name convert alike. -/
theorem outcome_convert_eq (h : IsKept settings converter) (now : Time.DateTime)
    (gmlId : Nat → String) (record : Record) :
    (Call.convert now gmlId record).outcome converter =
      (Call.convert now gmlId record).outcome (ofSettings (settingsNow settings converter)) := by
  have hsource (converter : Converter) : (Call.convert now gmlId record).outcome converter =
      ((assignments (converter.source now gmlId record)).map some).mapError .conversion := by
    rw [Call.outcome, perform_convert]
    cases assignments (converter.source now gmlId record) <;> rfl
  have hagree : (converter.source now gmlId record).AgreeOn readAttributes
      ((ofSettings (settingsNow settings converter)).source now gmlId record) :=
    { record := .of_get? rfl fun _ _ => rfl
      defaultLanguage := by rw [source, h.settings]; rfl
      gmlSrsName := by rw [source, h.settings]; rfl
      codeOf? := fun value => (SecurityMapping.codeOf?_ofList_toList h.spelled value).symm
      systemName := rfl
      now := rfl
      gmlId := rfl }
  rw [hsource, hsource, assignments, Profile.assignments_eq_of_agreeOn hagree, assignments]

/-- Whatever calls there were, failed ones included: a call that fails leaves the mapping and the
name of the source system, and so does any conversion; and the next conversion is that of a new
converter with the same mapping, the same name and otherwise the first settings. -/
theorem conversion_depends_on_settingsNow {calls : List Call}
    (hcalls : (ofSettings settings).afterCalls calls = converter) :
    (∀ (call : Call) (fault : CallFault), call.outcome converter = .error fault →
      (call.next converter).mapping = converter.mapping ∧
        (call.next converter).systemName = converter.systemName) ∧
    (∀ now gmlId record, ((Call.convert now gmlId record).next converter).mapping =
        converter.mapping ∧
      ((Call.convert now gmlId record).next converter).systemName = converter.systemName) ∧
    ∀ now gmlId record, (Call.convert now gmlId record).outcome converter =
      (Call.convert now gmlId record).outcome (ofSettings (settingsNow settings converter)) := by
  have hkept : IsKept settings converter := hcalls ▸ isKept_afterCalls (isKept_ofSettings _) calls
  refine ⟨fun call fault hfails => ?_, fun now gmlId record => ?_, outcome_convert_eq hkept⟩
  · rw [next_eq_of_outcome_error hfails]
    exact ⟨rfl, rfl⟩
  · rw [next_convert]
    exact ⟨rfl, rfl⟩

/-- A mapping in which the second entry evicts the first, properties that are refused, a name, and
a conversion. -/
def sampleCalls : List Call :=
  [.setMapping [.text "official=S", .null, .text "secret=S"],
    .refresh ⟨[(.text mappingProperty, .list [.text "secret=T", .int 5])], by decide⟩,
    .setSystemName (some "archive"),
    .convert Profile.sampleSource.now Profile.sampleSource.gmlId Profile.sampleSource.record]

theorem sample_conversion_depends_on_settingsNow :
    ∃ converter : Converter, (ofSettings .default).afterCalls sampleCalls = converter ∧
      settingsNow .default converter =
        { Settings.default with
          securityMappingList := ["secret=S"]
          sourceSystemName := some "archive" } ∧
      (∃ fault, (Call.setMapping [.int 5]).outcome converter = .error fault ∧
        ((Call.setMapping [.int 5]).next converter).mapping = converter.mapping) ∧
      (Call.convert Profile.sampleSource.now Profile.sampleSource.gmlId
          Profile.sampleSource.record).outcome converter =
        (Call.convert Profile.sampleSource.now Profile.sampleSource.gmlId
          Profile.sampleSource.record).outcome (ofSettings (settingsNow .default converter)) := by
  have hreached : (ofSettings .default).afterCalls sampleCalls =
      ⟨.default, .ofList ["official=S", "secret=S"], some "archive"⟩ := by
    simp only [sampleCalls, afterCalls, List.foldl_cons, List.foldl_nil, next_convert]
    rfl
  obtain ⟨hfails, -, hconvert⟩ := conversion_depends_on_settingsNow hreached
  have hfault : (Call.setMapping [.int 5]).outcome
      ⟨.default, .ofList ["official=S", "secret=S"], some "archive"⟩ =
        .error (.property (.entry ⟨.int 5⟩)) := rfl
  have hpairs : (SecurityMapping.ofList ["official=S", "secret=S"]).pairs = [("secret", "S")] := by
    decide
  refine ⟨_, hreached, ?_, ⟨_, hfault, (hfails _ _ hfault).1⟩, hconvert _ _ _⟩
  rw [settingsNow, SecurityMapping.toList, hpairs, List.mergeSort_singleton]
  rfl

end GeoMetadata.Converter
