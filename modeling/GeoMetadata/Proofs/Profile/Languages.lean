import GeoMetadata.Proofs.Profile.Values
import GeoMetadata.Proofs.Text.Case

/-!
# The two languages of a document

The language of a record is looked up twice.  For the record itself it is the first value of the
attribute, if that is a text and not empty; for the resource it is every text among the values.
Both fall back on the default language, but not under the same condition: the one when its lookup
finds nothing of use, the other when there are no texts at all.  So the two agree if there are no
texts, and otherwise as far as the first text is also the first value, or happens to be the default
language (`languagesAgree_iff_lower`).

The names of languages go by codes in lower case, so that two codes that agree but for case have
names that agree but for case (`lower_languageName`).
-/

namespace GeoMetadata

open Text

/-! ## The default language -/

theorem Settings.checkLanguage_eq_ok {name language : String} {value : Value}
    (hok : checkLanguage name value = .ok language) : language ≠ "" ∧ lower language = language := by
  obtain ⟨text, -, hok⟩ := bind_eq_ok_iff.mp hok
  simp only at hok
  split at hok
  · cases hok
  · rename_i hne
    obtain rfl := Except.ok.inj hok
    exact ⟨fun hempty => hne (lower_eq_empty_iff.mp hempty), lower_lower _⟩

/-- The default language is not empty, and in lower case. -/
theorem Settings.defaultLanguage_of_ofValue {value : Value} {settings : Settings}
    (hok : ofValue value = .ok settings) :
    settings.defaultLanguage ≠ "" ∧ lower settings.defaultLanguage = settings.defaultLanguage := by
  cases value with
  | map entries =>
      rw [ofValue, ofEntries] at hok
      simp only at hok
      split at hok
      · rename_i mapping system language srs _ _ hlanguage _ _
        obtain rfl := Except.ok.inj hok
        show language ≠ "" ∧ lower language = language
        cases hfield : Value.field? entries "default_language" with
        | none =>
            rw [hfield] at hlanguage
            obtain rfl := Except.ok.inj hlanguage
            decide +kernel
        | some field =>
            rw [hfield] at hlanguage
            exact checkLanguage_eq_ok hlanguage
      · cases hok
  | _ => cases hok

namespace Profile

variable {source : Source} {tracker : Assignments} {document : Node} {first : String}
  {rest : List String}

/-! ## Codes and names -/

/-- The names of codes that agree but for case agree but for case. -/
theorem lower_languageName (code : String) :
    lower (languageName (lower code)) = lower (languageName code) := by
  rw [languageName, languageName, lower_lower]
  cases entryValue? (lower code) languageNames with
  | none => exact lower_lower code
  | some name => rfl

/-- The record and the first language of the resource have one code and one name but for case, and
both have a code. -/
def LanguagesAgree (document : Node) : Prop :=
  ∃ code label resourceCode resourceLabel,
    valueIn? document Layout.language.codeListValue 1 = some code ∧
    valueIn? document Layout.language.text 1 = some label ∧
    valueIn? document Layout.resourceLanguage.codeListValue 1 = some resourceCode ∧
    valueIn? document Layout.resourceLanguage.text 1 = some resourceLabel ∧
    code = lower resourceCode ∧ lower label = lower resourceLabel ∧ code ≠ "" ∧ resourceCode ≠ ""

/-- The languages that are read in the document of a record. -/
theorem exists_languages (hok : assignments source = .ok tracker)
    (hlanguages : resourceLanguages source = first :: rest) :
    ∃ document, Converter.assemble tracker = .ok document ∧
      valueIn? document Layout.language.codeListValue 1 = some (lower (recordLanguage source)) ∧
      valueIn? document Layout.language.text 1 =
        some (languageName (lower (recordLanguage source))) ∧
      valueIn? document Layout.resourceLanguage.codeListValue 1 = some first ∧
      valueIn? document Layout.resourceLanguage.text 1 = some (languageName first) := by
  obtain ⟨given, document, hgiven, hassemble, hread⟩ := exists_document hok
  have hrecord := subset_of_plain (n := 2) rfl hgiven
  have hresource := subset_of_plain (n := 16) rfl hgiven
  have hfirst {template : GeoMetadata.Path.Template} {value : String}
      (hmem : (⟨template, 1, value⟩ : Write) ∈ allWrites given) :
      valueIn? document template 1 = some value := hread _ hmem
  have heach (template : GeoMetadata.Path.Template) (value : String) (values : List String) :
      (⟨template, 1, value⟩ : Write) ∈ each template (value :: values) := List.mem_cons_self
  refine ⟨document, hassemble, hfirst (hrecord ?code), hfirst (hrecord ?label),
    hfirst (hresource ?resourceCode), hfirst (hresource ?resourceLabel)⟩
  case code => simp only [languageWrites, codeWrites, List.mem_cons, true_or, or_true]
  case label => simp only [languageWrites, codeWrites, List.mem_cons, true_or, or_true]
  all_goals simp only [resourceLanguageWrites, hlanguages, List.map_cons]
  case resourceCode => exact List.mem_append_left _ (List.mem_append_right _ (heach _ _ _))
  case resourceLabel => exact List.mem_append_right _ (heach _ _ _)

theorem languagesAgree_iff_lower (hok : assignments source = .ok tracker)
    (hlanguages : resourceLanguages source = first :: rest) :
    ∃ document, Converter.assemble tracker = .ok document ∧
      (LanguagesAgree document ↔ first ≠ "" ∧ lower (recordLanguage source) = lower first) := by
  obtain ⟨document, hassemble, hcode, hlabel, hresourceCode, hresourceLabel⟩ :=
    exists_languages hok hlanguages
  refine ⟨document, hassemble, ?_, ?_⟩
  · rintro ⟨code, label, resourceCode, resourceLabel, hcode', -, hresourceCode', -, hagree, -, -, hne⟩
    obtain rfl := Option.some.inj (hcode.symm.trans hcode')
    obtain rfl := Option.some.inj (hresourceCode.symm.trans hresourceCode')
    exact ⟨hne, hagree⟩
  · rintro ⟨hne, hagree⟩
    refine ⟨_, _, _, _, hcode, hlabel, hresourceCode, hresourceLabel, hagree, ?_, ?_, hne⟩
    · rw [hagree, lower_languageName]
    · rw [hagree]
      exact lower_eq_empty_iff.not.mpr hne

/-! ## The two lookups -/

/-- The first value is a text only if it is the first text. -/
theorem string?_eq_none_or (record : Record) (name : String) :
    record.string? name = none ∨ record.string? name = (record.strings name).head? := by
  rw [Record.string?, Record.value?, Record.strings]
  cases record.values name with
  | nil => exact .inl rfl
  | cons value values =>
      cases htext : value.text? with
      | none => exact .inl htext
      | some text =>
          right
          rw [List.filterMap_cons_some htext]
          exact htext

/-- The language of a record whose values have a first text. -/
theorem recordLanguage_cases
    (hstrings : source.record.strings Attribute.language = first :: rest) :
    (source.record.string? Attribute.language = some first ∧
      recordLanguage source = if first = "" then source.settings.defaultLanguage else first) ∨
    (source.record.string? Attribute.language = none ∧
      recordLanguage source = source.settings.defaultLanguage) := by
  rcases string?_eq_none_or source.record Attribute.language with hnone | hfirst
  · refine .inr ⟨hnone, ?_⟩
    rw [recordLanguage, hnone]
  · rw [hstrings, List.head?_cons] at hfirst
    refine .inl ⟨hfirst, ?_⟩
    rw [recordLanguage, hfirst]

theorem recordLanguage_of_strings_eq_nil
    (hstrings : source.record.strings Attribute.language = []) :
    recordLanguage source = source.settings.defaultLanguage := by
  have hnone : source.record.string? Attribute.language = none := by
    rcases string?_eq_none_or source.record Attribute.language with hnone | hfirst
    · exact hnone
    · rw [hfirst, hstrings, List.head?_nil]
  rw [recordLanguage, hnone]

/-- The record has the first text for its language, but for case, if that is its first value or the
default language. -/
theorem lower_recordLanguage_eq_iff
    (hstrings : source.record.strings Attribute.language = first :: rest) (hne : first ≠ "")
    (hlower : lower source.settings.defaultLanguage = source.settings.defaultLanguage) :
    lower (recordLanguage source) = lower first ↔
      source.record.string? Attribute.language = some first ∨
        lower first = source.settings.defaultLanguage := by
  rcases recordLanguage_cases hstrings with ⟨hstring, hlanguage⟩ | ⟨hstring, hlanguage⟩
  · rw [hlanguage, if_neg hne]
    exact iff_of_true rfl (.inl hstring)
  · -- The first value is no text, and the record has fallen back on the default language.
    rw [hlanguage, hlower, hstring, eq_comm]
    simp

/-- The languages of a document agree, and neither is empty, exactly if the first text that the
record has for its language, if there is one, is not empty and is either its first value or, but for
case, the default language. -/
theorem languages_agree_iff {value : Value}
    (hsettings : Settings.ofValue value = .ok source.settings)
    (hok : assignments source = .ok tracker) :
    ∃ document, Converter.assemble tracker = .ok document ∧
      (LanguagesAgree document ↔
        ∀ first rest, source.record.strings Attribute.language = first :: rest →
          first ≠ "" ∧ (source.record.string? Attribute.language = some first ∨
            lower first = source.settings.defaultLanguage)) := by
  obtain ⟨hdefault, hlower⟩ := Settings.defaultLanguage_of_ofValue hsettings
  cases hstrings : source.record.strings Attribute.language with
  | nil =>
      -- Both lookups fall back on the default language.
      have hlanguages : resourceLanguages source = [source.settings.defaultLanguage] := by
        rw [resourceLanguages, hstrings]
      obtain ⟨document, hassemble, hagree⟩ := languagesAgree_iff_lower hok hlanguages
      refine ⟨document, hassemble, iff_of_true (hagree.mpr ⟨hdefault, ?_⟩) fun _ _ h => by cases h⟩
      rw [recordLanguage_of_strings_eq_nil hstrings]
  | cons first rest =>
      have hlanguages : resourceLanguages source = first :: rest := by
        rw [resourceLanguages, hstrings]
      obtain ⟨document, hassemble, hagree⟩ := languagesAgree_iff_lower hok hlanguages
      refine ⟨document, hassemble, hagree.trans ?_⟩
      have hforall {P : String → Prop} :
          (∀ other others, first :: rest = other :: others → P other) ↔ P first := by
        constructor
        · intro h
          exact h first rest rfl
        · intro h other others heq
          exact (List.cons.inj heq).1 ▸ h
      rw [hforall]
      exact and_congr_right fun hne => lower_recordLanguage_eq_iff hstrings hne hlower

/-- A record with some values for its language. -/
def languageSource (values : List Value) : Source := sourceOf [(Attribute.language, values)]

theorem sample_languages_agree_iff :
    (∃ tracker document, assignments (languageSource [.text "FRA", .int 5]) = .ok tracker ∧
      Converter.assemble tracker = .ok document ∧ LanguagesAgree document) ∧
    ∃ tracker document, assignments (languageSource [.text ""]) = .ok tracker ∧
      Converter.assemble tracker = .ok document ∧ ¬LanguagesAgree document := by
  have hsettings : Settings.ofValue (.map []) = .ok Settings.default := by rfl
  constructor
  · obtain ⟨tracker, hok⟩ : Succeeds (assignments (languageSource [.text "FRA", .int 5])) :=
      succeeds_of_faultOf? (by decide +kernel)
    obtain ⟨document, hassemble, hagree⟩ := languages_agree_iff hsettings hok
    refine ⟨tracker, document, hok, hassemble, hagree.mpr fun first rest hstrings => ?_⟩
    obtain ⟨rfl, -⟩ := List.cons.inj (show ["FRA"] = first :: rest from hstrings)
    exact ⟨by decide, .inl rfl⟩
  · obtain ⟨tracker, hok⟩ : Succeeds (assignments (languageSource [.text ""])) :=
      succeeds_of_faultOf? (by decide +kernel)
    obtain ⟨document, hassemble, hagree⟩ := languages_agree_iff hsettings hok
    exact ⟨tracker, document, hok, hassemble, fun h => (hagree.mp h "" [] rfl).1 rfl⟩

/-- A text after a number is the language of the resource, but not that of the record. -/
theorem languages_after_number_differ :
    ∃ tracker document, assignments (languageSource [.int 5, .text "fra"]) = .ok tracker ∧
      Converter.assemble tracker = .ok document ∧
      valueIn? document Layout.language.codeListValue 1 = some "eng" ∧
      valueIn? document Layout.language.text 1 = some "English" ∧
      valueIn? document Layout.resourceLanguage.codeListValue 1 = some "fra" ∧
      valueIn? document Layout.resourceLanguage.text 1 = some "French" ∧
      ¬LanguagesAgree document := by
  obtain ⟨tracker, hok⟩ : Succeeds (assignments (languageSource [.int 5, .text "fra"])) :=
    succeeds_of_faultOf? (by decide +kernel)
  obtain ⟨document, hassemble, hcode, hlabel, hresourceCode, hresourceLabel⟩ :=
    exists_languages hok rfl
  have hlower : lower "eng" = "eng" ∧ lower "fra" = "fra" := by decide +kernel
  refine ⟨tracker, document, hok, hassemble, hcode.trans ?_, hlabel.trans ?_, hresourceCode,
    hresourceLabel.trans ?_, ?_⟩
  · exact congrArg some hlower.1
  · decide +kernel
  · decide +kernel
  · rintro ⟨code, label, resourceCode, resourceLabel, hcode', -, hresourceCode', -, hagree, -⟩
    obtain rfl := Option.some.inj (hcode.symm.trans hcode')
    obtain rfl := Option.some.inj (hresourceCode.symm.trans hresourceCode')
    exact absurd hagree (by decide +kernel)

end Profile

end GeoMetadata
