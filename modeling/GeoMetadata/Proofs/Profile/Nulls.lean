import GeoMetadata.Converter
import GeoMetadata.Proofs.Profile.Confinement

/-!
# Nulls and attributes that are not read

All lookups of a record pass over nulls, and whether an attribute is set does not depend on its
values.  So records that are the same but for nulls agree on every attribute
(`Record.SameButNulls.agreeOn`), and a conversion, which looks at records in no other way, does not
tell them apart.  Nor does it tell apart records that differ in attributes that it does not read.

An attribute is read if some section gives something else for some record once the attribute has
other values.  These are the `readAttributes` and no others (`isRead_iff`): that no other attribute
is read holds by the dependence of the sections, and that each of them is read is checked on a
record for which it counts (`countingSource`).
-/

namespace GeoMetadata

/-- The values that are not null. -/
def dropNulls (values : List Value) : List Value := values.filter (!·.isNull)

namespace Profile

/-- The section gives something else for some record if an attribute has other values. -/
def Section.Reads (part : Section) (name : String) : Prop :=
  ∃ source values progress,
    part.contribute (source.setting name values) progress ≠ part.contribute source progress

/-- A conversion reads the attribute. -/
def IsRead (name : String) : Prop := ∃ part ∈ sections, part.Reads name

end Profile

namespace Record

/-- The records have the same attributes, with the same values but for nulls, and are of the same
catalog source. -/
structure SameButNulls (first second : Record) : Prop where
  sourceId : first.sourceId = second.sourceId
  values : ∀ name, (first.attributes.get? name).map dropNulls =
    (second.attributes.get? name).map dropNulls

/-- The records have the same lists of values, if any, for the attributes that conversions read, and
are of the same catalog source. -/
structure SameRead (first second : Record) : Prop where
  sourceId : first.sourceId = second.sourceId
  values : ∀ name, Profile.IsRead name →
    first.attributes.get? name = second.attributes.get? name

variable {first second : Record}

theorem values_eq_getD_map_dropNulls (record : Record) (name : String) :
    record.values name = ((record.attributes.get? name).map dropNulls).getD [] := by
  rw [Record.values]
  cases record.attributes.get? name <;> rfl

theorem has_eq_isSome_map_dropNulls (record : Record) (name : String) :
    record.has name = ((record.attributes.get? name).map dropNulls).isSome := by
  rw [Record.has, OrderedMap.contains, Option.isSome_map]

/-- Nulls do not show in any lookup. -/
theorem SameButNulls.agreeOn (h : first.SameButNulls second) (names : List String) :
    first.AgreeOn names second where
  has name _ := by
    rw [has_eq_isSome_map_dropNulls, h.values name, ← has_eq_isSome_map_dropNulls]
  values name _ := by
    rw [values_eq_getD_map_dropNulls, h.values name, ← values_eq_getD_map_dropNulls]
  sourceId := h.sourceId

theorem get?_set_of_not_mem {names : List String} {name other : String} (hname : name ∉ names)
    (hother : other ∈ names) (record : Record) (values : List Value) :
    (record.set name values).attributes.get? other = record.attributes.get? other := by
  rw [Record.set, OrderedMap.get?_insert, if_neg]
  rintro rfl
  exact hname hother

theorem sameButNulls_set {values others : List Value} (h : dropNulls values = dropNulls others)
    (record : Record) (name : String) :
    (record.set name values).SameButNulls (record.set name others) where
  sourceId := rfl
  values other := by
    rw [Record.set, Record.set, OrderedMap.get?_insert, OrderedMap.get?_insert]
    split
    · exact congrArg some h
    · rfl

end Record

namespace Profile

/-! ## The attributes that are read -/

/-- Sources that differ in an attribute that is not among the names agree on the names. -/
theorem Source.agreeOn_setting {names : List String} {name : String} (hname : name ∉ names)
    (source : Source) (values : List Value) :
    (source.setting name values).AgreeOn names source where
  record := .of_get? rfl fun _ hother => Record.get?_set_of_not_mem hname hother source.record values
  defaultLanguage := rfl
  gmlSrsName := rfl
  codeOf? _ := rfl
  systemName := rfl
  now := rfl
  gmlId := rfl

/-- A source for which all attributes count: comments count beside a cloud cover, and the two parts
of a caveat beside each other. -/
def countingSource : Source :=
  { sourceOf
      [(Attribute.cloudCover, [.int 5]),
        (Attribute.resourceProtection.dissemination, [.text "D"]),
        (Attribute.resourceProtection.releasability, [.text "R"]),
        (Attribute.metadataProtection.dissemination, [.text "D"]),
        (Attribute.metadataProtection.releasability, [.text "R"])] with
    mapping := .ofList ["secret=secret"] }

/-- A value that counts for an attribute. -/
def countingValue (name : String) : Value :=
  if name ∈ Attribute.dated then .moment ⟨⟨2001, 1, 1, rfl⟩, .midnight, none⟩
  else if name ∈ [Attribute.altitude, Attribute.cloudCover, Attribute.imageryRating] then .int 7
  else if name = Attribute.crsCode then .text "EPSG:4326"
  else .text "secret"

/-- The section tells the source from one in which the attribute has another value. -/
def countsIn (name : String) (part : Section) : Bool :=
  decide ((part.contribute (countingSource.setting name [countingValue name]) ⟨0, 0⟩).toOption ≠
    (part.contribute countingSource ⟨0, 0⟩).toOption)

theorem any_countsIn : (readAttributes.all fun name => sections.any (countsIn name)) = true := by
  decide +kernel

/-- The attributes that conversions read. -/
theorem isRead_iff {name : String} : IsRead name ↔ name ∈ readAttributes := by
  constructor
  · rintro ⟨part, hpart, source, values, progress, hdiffers⟩
    by_contra hname
    have hsame := readsOnly_of_mem hpart _ _ (Source.agreeOn_setting hname source values)
    exact hdiffers (congrFun hsame progress)
  · intro hname
    -- That each of these attributes counts somewhere has been tried out.
    have hcounts := List.all_eq_true.mp any_countsIn name hname
    obtain ⟨part, hpart, hdiffers⟩ := List.any_eq_true.mp hcounts
    exact ⟨part, hpart, countingSource, [countingValue name], ⟨0, 0⟩,
      fun hsame => of_decide_eq_true hdiffers (congrArg Except.toOption hsame)⟩

end Profile

/-- An attribute that is not read is added, or given other values. -/
theorem Record.sameRead_set {name : String} (hname : name ∉ Profile.readAttributes)
    (record : Record) (values : List Value) : (record.set name values).SameRead record where
  sourceId := rfl
  values _ hother := get?_set_of_not_mem hname (Profile.isRead_iff.mp hother) record values

/-! ## Conversions -/

namespace Converter

variable {first second : Record}

theorem run_source_eq (converter : Converter) (now : Time.DateTime) (gmlId : Nat → String)
    (h : first.AgreeOn Profile.readAttributes second) :
    Profile.run (converter.source now gmlId first) =
      Profile.run (converter.source now gmlId second) :=
  Profile.run_eq_of_agreeOn
    { record := h
      defaultLanguage := rfl
      gmlSrsName := rfl
      codeOf? := fun _ => rfl
      systemName := rfl
      now := rfl
      gmlId := rfl }

/-- Records that are the same but for nulls, and records that are the same but for attributes that
are not read, are converted alike: all that happens in the conversion is the same, and so are the
assignments and their order, or the fault. -/
theorem conversion_ignores_nulls_and_unread_attributes (converter : Converter)
    (now : Time.DateTime) (gmlId : Nat → String) (first second : Record)
    (h : first.SameButNulls second ∨ first.SameRead second) :
    Profile.run (converter.source now gmlId first) =
        Profile.run (converter.source now gmlId second) ∧
      Converter.assignments (converter.source now gmlId first) =
        Converter.assignments (converter.source now gmlId second) := by
  have hagree : first.AgreeOn Profile.readAttributes second := by
    -- Either way all lookups of the attributes that are read agree.
    obtain hnulls | hread := h
    · exact hnulls.agreeOn _
    · exact .of_get? hread.sourceId fun name hname =>
        hread.values name (Profile.isRead_iff.mpr hname)
  have hrun := run_source_eq converter now gmlId hagree
  refine ⟨hrun, ?_⟩
  rw [Converter.assignments, Profile.assignments, hrun, Converter.assignments, Profile.assignments]

theorem sample_conversion_ignores_nulls_and_unread_attributes :
    Converter.assignments ((ofSettings .default).source Profile.sampleSource.now (fun _ => "")
        (Profile.sampleSource.record.set "title" [.null, .text "Coast"])) =
      Converter.assignments ((ofSettings .default).source Profile.sampleSource.now (fun _ => "")
        (Profile.sampleSource.record.set "title" [.text "Coast", .null])) ∧
    Converter.assignments ((ofSettings .default).source Profile.sampleSource.now (fun _ => "")
        (Profile.sampleSource.record.set "colour" [.text "blue"])) =
      Converter.assignments ((ofSettings .default).source Profile.sampleSource.now (fun _ => "")
        Profile.sampleSource.record) := by
  have hnulls := Record.sameButNulls_set
    (show dropNulls [.null, .text "Coast"] = dropNulls [.text "Coast", .null] from rfl)
    Profile.sampleSource.record "title"
  have hread := Record.sameRead_set (show "colour" ∉ Profile.readAttributes by decide)
    Profile.sampleSource.record [.text "blue"]
  exact ⟨(conversion_ignores_nulls_and_unread_attributes _ _ _ _ _ (.inl hnulls)).2,
    (conversion_ignores_nulls_and_unread_attributes _ _ _ _ _ (.inr hread)).2⟩

end Converter

end GeoMetadata
