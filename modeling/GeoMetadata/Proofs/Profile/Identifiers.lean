import GeoMetadata.Proofs.Profile.Values
import Mathlib.Data.List.InsertIdx

/-!
# Identifiers in groups

An identifier of 32 characters is cut into five groups with hyphens between them, which loses
nothing: without the hyphens it is the identifier again (`isFormatOf_of_length`).

```text
0123456789abcdef0123456789abcdef        the identifier
01234567-89ab-cdef-0123-456789abcdef    in groups
        8    13   18   23               the hyphens
```

Other identifiers stay as they are, with one exception.  A line feed at the end does not count, so
that 32 characters and a line feed are grouped as the 32 characters are, and the line feed is lost
(`formatIdentifier_append_break`).  That it is lost is seen by counting: there is one line feed less
in the groups than in the identifier (`not_sublist_of_append_break`).  No text in groups is cut
again, because it has 36 characters.

In a document the text stands at three places, as the identifier of the file and in two code spaces
as one of the resource (`Identifies`).
-/

namespace GeoMetadata.Profile

/-- The places of the hyphens in an identifier in groups. -/
def hyphenPlaces : List Nat := [8, 13, 18, 23]

/-- The text without the characters at the places of hyphens. -/
def withoutHyphens (text : List Char) : List Char :=
  hyphenPlaces.foldr (fun place rest => rest.eraseIdx place) text

/-- The text is the identifier in groups if it has 32 characters, and else the identifier itself. -/
structure IsFormatOf (text identifier : String) : Prop where
  other : identifier.length ≠ 32 → text = identifier
  length : identifier.length = 32 → text.length = 36
  hyphens : identifier.length = 32 → ∀ place ∈ hyphenPlaces, text.toList[place]? = some '-'
  restored : identifier.length = 32 → withoutHyphens text.toList = identifier.toList

/-- The identifier is one character too long, and that is a line feed at its end. -/
def EndsInBreak (identifier : String) : Prop :=
  identifier.length = 33 ∧ identifier.toList.getLast? = some '\n'

instance (identifier : String) : Decidable (EndsInBreak identifier) :=
  inferInstanceAs (Decidable (_ ∧ _))

variable {identifier : String}

/-! ## The groups -/

/-- The groups of a text, and what is left of it. -/
structure InGroups (text first second third fourth fifth rest : List Char) : Prop where
  joined : text = first ++ (second ++ (third ++ (fourth ++ (fifth ++ rest))))
  first_length : first.length = 8
  second_length : second.length = 4
  third_length : third.length = 4
  fourth_length : fourth.length = 4
  fifth_length : fifth.length = 12

variable {text first second third fourth fifth rest : List Char}

theorem InGroups.length (h : InGroups text first second third fourth fifth rest) :
    text.length = 32 + rest.length := by
  rw [h.joined]
  simp only [List.length_append, h.first_length, h.second_length, h.third_length, h.fourth_length,
    h.fifth_length]
  omega

theorem exists_inGroups (hlength : text.length = 32) :
    ∃ first second third fourth fifth, InGroups text first second third fourth fifth [] := by
  refine ⟨text.take 8, (text.drop 8).take 4, (text.drop 12).take 4, (text.drop 16).take 4,
    (text.drop 20).take 12, ?joined, ?_, ?_, ?_, ?_, ?_⟩
  case joined =>
    have hdrop (n m : Nat) : (text.drop n).take m ++ text.drop (n + m) = text.drop n := by
      rw [← List.drop_drop, List.take_append_drop]
    rw [← List.drop_of_length_le (Nat.le_of_eq hlength), hdrop 20 12, hdrop 16 4, hdrop 12 4,
      hdrop 8 4, List.take_append_drop]
  all_goals
    simp only [List.length_take, List.length_drop]
    omega

theorem InGroups.intercalate (h : InGroups text first second third fourth fifth rest) :
    ['-'].intercalate [text.take 8, (text.drop 8).take 4, (text.drop 12).take 4,
        (text.drop 16).take 4, (text.drop 20).take 12] =
      first ++ '-' :: (second ++ '-' :: (third ++ '-' :: (fourth ++ '-' :: fifth))) := by
  obtain ⟨rfl, hfirst, hsecond, hthird, hfourth, hfifth⟩ := h
  simp [List.intercalate, List.drop_append, hfirst, hsecond, hthird, hfourth, hfifth,
    List.drop_of_length_le]

theorem withoutHyphens_groups (hfirst : first.length = 8) (hsecond : second.length = 4)
    (hthird : third.length = 4) (hfourth : fourth.length = 4) :
    withoutHyphens (first ++ '-' :: (second ++ '-' :: (third ++ '-' :: (fourth ++ '-' :: fifth)))) =
      first ++ (second ++ (third ++ (fourth ++ fifth))) := by
  simp [withoutHyphens, hyphenPlaces, List.eraseIdx_append_of_length_le, hfirst, hsecond, hthird,
    hfourth]

/-! ## One identifier -/

/-- The identifier is grouped by its first 32 characters. -/
theorem InGroups.formatIdentifier
    (h : InGroups identifier.toList first second third fourth fifth rest)
    (hrest : rest = [] ∨ rest = ['\n']) :
    formatIdentifier identifier =
      String.ofList (first ++ '-' :: (second ++ '-' :: (third ++ '-' :: (fourth ++ '-' :: fifth)))) := by
  have hgrouped : identifier.toList.length = groupedLength ∨
      (identifier.toList.length = groupedLength + 1 ∧ identifier.toList.getLast? = some '\n') := by
    rcases hrest with rfl | rfl
    · exact .inl h.length
    · refine .inr ⟨h.length, ?_⟩
      rw [h.joined]
      simp
  rw [Profile.formatIdentifier]
  simp only [if_pos hgrouped, h.intercalate]

theorem isFormatOf_of_length (hlength : identifier.length = 32) :
    IsFormatOf (formatIdentifier identifier) identifier := by
  obtain ⟨first, second, third, fourth, fifth, h⟩ :=
    exists_inGroups (String.length_toList.trans hlength)
  rw [h.formatIdentifier (.inl rfl)]
  obtain ⟨hjoined, hfirst, hsecond, hthird, hfourth, hfifth⟩ := h
  refine ⟨absurd hlength, fun _ => ?length, fun _ => ?hyphens, fun _ => ?restored⟩
  case length =>
    rw [String.length_ofList]
    simp only [List.length_append, List.length_cons, hfirst, hsecond, hthird, hfourth, hfifth]
  case hyphens =>
    rw [String.toList_ofList]
    simp [hyphenPlaces, List.getElem?_append, hfirst, hsecond, hthird, hfourth]
  case restored =>
    rw [String.toList_ofList, withoutHyphens_groups hfirst hsecond hthird hfourth, hjoined,
      List.append_nil]

theorem formatIdentifier_of_length_ne (hlength : identifier.length ≠ 32)
    (hbreak : ¬EndsInBreak identifier) : formatIdentifier identifier = identifier := by
  rw [formatIdentifier]
  refine if_neg (not_or.mpr ⟨?_, ?_⟩)
  · rwa [String.length_toList]
  · rwa [String.length_toList]

/-- A line feed that is too much is left out. -/
theorem formatIdentifier_append_break {kept : String} (hlength : kept.length = 32) :
    formatIdentifier (kept ++ "\n") = formatIdentifier kept := by
  obtain ⟨first, second, third, fourth, fifth, h⟩ :=
    exists_inGroups (String.length_toList.trans hlength)
  have hlonger : InGroups (kept ++ "\n").toList first second third fourth fifth ['\n'] := by
    refine { h with joined := ?_ }
    rw [String.toList_append, h.joined]
    simp
  rw [h.formatIdentifier (.inl rfl), hlonger.formatIdentifier (.inr rfl)]

/-- The line feed does not come back among the groups. -/
theorem not_sublist_of_append_break {kept : String} (hlength : kept.length = 32) :
    ¬(kept ++ "\n").toList.Sublist (formatIdentifier (kept ++ "\n")).toList := by
  obtain ⟨first, second, third, fourth, fifth, h⟩ :=
    exists_inGroups (String.length_toList.trans hlength)
  intro hsublist
  -- The groups have one line feed less than the identifier.
  have hcount := hsublist.count_le '\n'
  rw [formatIdentifier_append_break hlength, h.formatIdentifier (.inl rfl), String.toList_ofList,
    String.toList_append, h.joined] at hcount
  have hbreak : "\n".toList.count '\n' = 1 := by decide
  have hhyphen : ('-' == '\n') = false := by decide
  simp only [List.count_append, List.count_cons, List.append_nil, hbreak, hhyphen,
    Bool.false_eq_true, if_false] at hcount
  omega

theorem exists_of_endsInBreak (h : EndsInBreak identifier) :
    ∃ kept : String, kept.length = 32 ∧ identifier = kept ++ "\n" := by
  obtain ⟨hlength, hlast⟩ := h
  obtain ⟨kept, hkept⟩ := List.getLast?_eq_some_iff.mp hlast
  refine ⟨String.ofList kept, ?_, ?_⟩
  · rw [← String.length_toList, hkept, List.length_append] at hlength
    rw [String.length_ofList]
    exact Nat.succ.inj hlength
  · rw [← String.toList_inj, hkept, String.toList_append, String.toList_ofList]
    rfl

theorem isFormatOf_iff :
    IsFormatOf (formatIdentifier identifier) identifier ↔ ¬EndsInBreak identifier := by
  constructor
  · intro h hbreak
    obtain ⟨kept, hlength, rfl⟩ := exists_of_endsInBreak hbreak
    have hother := h.other (by rw [hbreak.1]; decide)
    rw [formatIdentifier_append_break hlength] at hother
    -- The text in groups is longer than the identifier that it would have to be.
    have hlengths := congrArg String.length hother
    rw [(isFormatOf_of_length hlength).length hlength, hbreak.1] at hlengths
    cases hlengths
  · intro hbreak
    by_cases hlength : identifier.length = 32
    · exact isFormatOf_of_length hlength
    · rw [formatIdentifier_of_length_ne hlength hbreak]
      exact ⟨fun _ => rfl, fun h => absurd h hlength, fun h => absurd h hlength,
        fun h => absurd h hlength⟩

theorem IsFormatOf.sublist {text : String} (h : IsFormatOf text identifier) :
    identifier.toList.Sublist text.toList := by
  by_cases hlength : identifier.length = 32
  · rw [← h.restored hlength]
    simp only [withoutHyphens, hyphenPlaces, List.foldr_cons, List.foldr_nil]
    exact (List.eraseIdx_sublist _ _).trans ((List.eraseIdx_sublist _ _).trans
      ((List.eraseIdx_sublist _ _).trans (List.eraseIdx_sublist _ _)))
  · rw [h.other hlength]

theorem sublist_formatIdentifier_iff :
    identifier.toList.Sublist (formatIdentifier identifier).toList ↔ ¬EndsInBreak identifier := by
  refine ⟨fun hsublist hbreak => ?_, fun hbreak => (isFormatOf_iff.mpr hbreak).sublist⟩
  obtain ⟨kept, hlength, rfl⟩ := exists_of_endsInBreak hbreak
  exact not_sublist_of_append_break hlength hsublist

theorem formatIdentifier_of_length_eq (hlength : identifier.length = 36) :
    formatIdentifier identifier = identifier :=
  formatIdentifier_of_length_ne (by omega) fun hbreak => absurd hbreak.1 (by omega)

theorem formatIdentifier_idempotent (identifier : String) :
    formatIdentifier (formatIdentifier identifier) = formatIdentifier identifier := by
  by_cases hbreak : EndsInBreak identifier
  · obtain ⟨kept, hlength, rfl⟩ := exists_of_endsInBreak hbreak
    rw [formatIdentifier_append_break hlength]
    exact formatIdentifier_of_length_eq ((isFormatOf_of_length hlength).length hlength)
  · by_cases hlength : identifier.length = 32
    · exact formatIdentifier_of_length_eq ((isFormatOf_of_length hlength).length hlength)
    · rw [formatIdentifier_of_length_ne hlength hbreak,
        formatIdentifier_of_length_ne hlength hbreak]

/-! ## The identifiers of a document -/

/-- The text is the identifier of the file and, in two code spaces, of the resource. -/
structure Identifies (text : String) (document : Node) : Prop where
  file : valueIn? document Layout.fileIdentifier 1 = some text
  unique : valueIn? document Layout.citationIdentifier.code 1 = some text ∧
    valueIn? document Layout.citationIdentifier.codeSpace 1 = some "UUID"
  system : valueIn? document Layout.citationIdentifier.code 2 = some text ∧
    valueIn? document Layout.citationIdentifier.codeSpace 2 = some "sourceSystemId"

variable {source : Source} {tracker : Assignments} {writes : List Write}

theorem identifierWrites_subset {code codeSpace : String} {index : Nat}
    (hwrites : citationWrites source = .ok writes)
    (hmem : ((code, codeSpace), index) ∈ (citationIdentifiers source).zipIdx 1) :
    identifierWrites Layout.citationIdentifier index code codeSpace ⊆ writes := by
  obtain ⟨dates, -, hwrites⟩ := bind_eq_ok_iff.mp hwrites
  obtain ⟨edition, -, hwrites⟩ := bind_eq_ok_iff.mp hwrites
  obtain rfl := Except.ok.inj hwrites
  exact fun write hwrite => List.mem_append_right _ (List.mem_flatMap.mpr ⟨_, hmem, hwrite⟩)

/-- A record with an identifier has it, in groups, as that of the file and of the resource. -/
theorem exists_identifies (hok : assignments source = .ok tracker)
    (hid : source.record.string? Attribute.id = some identifier) :
    ∃ document, Converter.assemble tracker = .ok document ∧
      Identifies (formatIdentifier identifier) document := by
  obtain ⟨given, document, hgiven, hassemble, hread⟩ := exists_document hok
  have hfile := subset_of_plain (n := 1) rfl hgiven
  obtain ⟨writes, hwrites, hsubset⟩ := exists_subset_of_checked (n := 9) rfl hgiven
  have hcode {code codeSpace : String} {index : Nat}
      (hmem : ((code, codeSpace), index) ∈ (citationIdentifiers source).zipIdx 1) :
      valueIn? document Layout.citationIdentifier.code index = some code ∧
        valueIn? document Layout.citationIdentifier.codeSpace index = some codeSpace := by
    have hwritten := identifierWrites_subset hwrites hmem
    exact ⟨hread _ (hsubset (hwritten List.mem_cons_self)),
      hread _ (hsubset (hwritten (List.mem_cons_of_mem _ List.mem_cons_self)))⟩
  refine ⟨document, hassemble, ?file, hcode ?unique, hcode ?system⟩
  case file =>
    refine hread (.only Layout.fileIdentifier (formatIdentifier identifier)) (hfile ?_)
    rw [fileIdentifierWrites, hid]
    exact List.mem_cons_self
  all_goals
    rw [citationIdentifiers, hid]
    simp

/-- Formatting keeps an identifier, or groups it without loss, exactly if it does not end in a line
feed too much; then and only then do the identifiers of documents have all its characters.  Such a
line feed is left out. -/
theorem identifiers_lose_breaks_only (identifier : String) :
    (IsFormatOf (formatIdentifier identifier) identifier ↔ ¬EndsInBreak identifier) ∧
    (EndsInBreak identifier → ∃ kept : String, kept.length = 32 ∧ identifier = kept ++ "\n" ∧
      IsFormatOf (formatIdentifier identifier) kept) ∧
    formatIdentifier (formatIdentifier identifier) = formatIdentifier identifier ∧
    ∀ (source : Source) (tracker : Assignments), assignments source = .ok tracker →
      source.record.string? Attribute.id = some identifier →
        ∃ document text, Converter.assemble tracker = .ok document ∧ Identifies text document ∧
          text = formatIdentifier identifier ∧
          (identifier.toList.Sublist text.toList ↔ ¬EndsInBreak identifier) := by
  refine ⟨isFormatOf_iff, fun hbreak => ?_, formatIdentifier_idempotent identifier,
    fun source tracker hok hid => ?_⟩
  · obtain ⟨kept, hlength, rfl⟩ := exists_of_endsInBreak hbreak
    exact ⟨kept, hlength, rfl,
      (formatIdentifier_append_break hlength).symm ▸ isFormatOf_of_length hlength⟩
  · obtain ⟨document, hassemble, hidentifies⟩ := exists_identifies hok hid
    exact ⟨document, _, hassemble, hidentifies, rfl, sublist_formatIdentifier_iff⟩

/-- An identifier of 32 characters with a line feed after them. -/
def brokenIdentifier : String := "0123456789abcdef0123456789abcdef\n"

theorem broken_identifiers_lose_breaks_only :
    EndsInBreak brokenIdentifier ∧
      (∃ kept : String, kept.length = 32 ∧ brokenIdentifier = kept ++ "\n" ∧
        IsFormatOf (formatIdentifier brokenIdentifier) kept) ∧
      ∃ tracker document text, assignments (sourceOf [(Attribute.id, [.text brokenIdentifier])]) =
          .ok tracker ∧
        Converter.assemble tracker = .ok document ∧ Identifies text document ∧
        ¬brokenIdentifier.toList.Sublist text.toList := by
  have hbreak : EndsInBreak brokenIdentifier := by decide
  obtain ⟨-, hkept, -, hdocument⟩ := identifiers_lose_breaks_only brokenIdentifier
  obtain ⟨tracker, hok⟩ : Succeeds (assignments (sourceOf [(Attribute.id, [.text brokenIdentifier])])) :=
    succeeds_of_faultOf? (by decide +kernel)
  obtain ⟨document, text, hassemble, hidentifies, -, hsublist⟩ := hdocument _ tracker hok rfl
  exact ⟨hbreak, hkept hbreak, tracker, document, text, hok, hassemble, hidentifies,
    fun h => hsublist.mp h hbreak⟩

/-- An identifier with a line feed does not stay as it is. -/
theorem line_feed_of_identifier_is_lost :
    brokenIdentifier.length ≠ 32 ∧ formatIdentifier brokenIdentifier ≠ brokenIdentifier ∧
      formatIdentifier brokenIdentifier = "01234567-89ab-cdef-0123-456789abcdef" := by
  decide +kernel

end GeoMetadata.Profile
