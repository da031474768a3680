import GeoMetadata.Proofs.Path.Template
import GeoMetadata.Proofs.Xml.Reading

/-!
# Escaped texts are read again

Whoever reads replaces the references in a text by the characters that they stand for.  An escaped
text spells each character in one of two ways (`Spells`), so that reading goes through it character
by character (`unescape?_flatMap`).  Of the signs of markup none is left
(`not_mem_flatMap_escapeInText`, `not_mem_flatMap_escapeInValue`): texts end at the next tag, values
at the quote after them, and white space in values is never changed.
-/

namespace GeoMetadata.Xml

open Text

/-! ## References -/

theorem unescape?_append {before rest : List Char} (hfree : '&' ∉ before) :
    unescape? (before ++ rest) = (unescape? rest).map (before ++ ·) := by
  obtain ⟨first, pieces, hrest⟩ := exists_splitAt_eq_cons '&' rest
  simp only [unescape?, splitAt_append hfree hrest, hrest, Option.map_map, Function.comp_def,
    List.append_assoc]

theorem unescape?_reference {reference rest : List Char} {c : Char} (hamp : '&' ∉ reference)
    (hend : ';' ∉ reference) (hc : referent? reference = some c) :
    unescape? ('&' :: (reference ++ ';' :: rest)) = (unescape? rest).map (c :: ·) := by
  obtain ⟨first, pieces, hrest⟩ := exists_splitAt_eq_cons '&' rest
  -- The text is cut at the ampersand, so that the piece after it begins with the whole reference.
  have hpiece : '&' ∉ reference ++ [';'] := by
    rw [List.mem_append, not_or]
    exact ⟨hamp, by decide⟩
  have hsplit := splitAt_append hpiece hrest
  rw [List.append_assoc, List.singleton_append] at hsplit
  have hfirst : dereference? (reference ++ [';'] ++ first) = some (c :: first) := by
    rw [dereference?, List.append_assoc, List.singleton_append, cutAt_append_cons hend]
    show (referent? reference).map _ = _
    rw [hc]
    rfl
  simp only [unescape?, splitAt_cons_self, hsplit, hrest, List.mapM_cons, hfirst]
  cases pieces.mapM dereference? <;> rfl

/-- The spelling is read as the character: it is the character itself, or a reference to it. -/
inductive Spells : List Char → Char → Prop
  | literal {c : Char} (hc : c ≠ '&') : Spells [c] c
  | reference {reference : List Char} {c : Char} (hamp : '&' ∉ reference) (hend : ';' ∉ reference)
      (hc : referent? reference = some c) : Spells ('&' :: (reference ++ [';'])) c

theorem Spells.unescape?_append {spelling : List Char} {c : Char} (h : Spells spelling c)
    (rest : List Char) : unescape? (spelling ++ rest) = (unescape? rest).map (c :: ·) := by
  cases h with
  | literal hc => exact Xml.unescape?_append (by simpa using hc.symm)
  | reference hamp hend hc =>
      rw [List.cons_append, List.append_assoc, List.singleton_append]
      exact unescape?_reference hamp hend hc

theorem unescape?_flatMap {spell : Char → List Char} (h : ∀ c, Spells (spell c) c)
    (text : List Char) : unescape? (text.flatMap spell) = some text := by
  induction text with
  | nil => rfl
  | cons c rest ih => rw [List.flatMap_cons, (h c).unescape?_append, ih, Option.map_some]

theorem spells_escapeInText (c : Char) : Spells (escapeInText c) c := by
  unfold escapeInText
  split
  · subst c
    exact @Spells.reference "amp".toList _ (by decide) (by decide) (by decide)
  split
  · subst c
    exact @Spells.reference "lt".toList _ (by decide) (by decide) (by decide)
  split
  · subst c
    exact @Spells.reference "gt".toList _ (by decide) (by decide) (by decide)
  split
  · subst c
    exact @Spells.reference "#13".toList _ (by decide) (by decide) (by decide)
  · exact .literal ‹_›

theorem spells_escapeInValue (c : Char) : Spells (escapeInValue c) c := by
  unfold escapeInValue
  split
  · subst c
    exact @Spells.reference "quot".toList _ (by decide) (by decide) (by decide)
  split
  · subst c
    exact @Spells.reference "#10".toList _ (by decide) (by decide) (by decide)
  split
  · subst c
    exact @Spells.reference "#9".toList _ (by decide) (by decide) (by decide)
  · exact spells_escapeInText c

/-- The characters that references are written with. -/
def referenceLetters : List Char := "&;#01239abcdefghijklmnopqrstuvwxyz".toList

/-- An escaped character is itself, unless it is a sign of markup, or it is spelled with the letters
of a reference. -/
theorem mem_escapeInText {c d : Char} (h : d ∈ escapeInText c) :
    d ∈ referenceLetters ∨ d = c ∧ c ∉ ['<', '>', '\r'] := by
  have hletters : ∀ spelling ∈ ["&amp;", "&lt;", "&gt;", "&#13;"],
      spelling.toList ⊆ referenceLetters := by decide
  simp only [List.forall_mem_cons] at hletters
  obtain ⟨hamp, hlt, hgt, hreturn, -⟩ := hletters
  unfold escapeInText at h
  split at h
  · exact .inl (hamp h)
  split at h
  · exact .inl (hlt h)
  split at h
  · exact .inl (hgt h)
  split at h
  · exact .inl (hreturn h)
  · rename_i hnotLt hnotGt hnotReturn
    refine .inr ⟨List.mem_singleton.mp h, ?_⟩
    simp [hnotLt, hnotGt, hnotReturn]

theorem mem_escapeInValue {c d : Char} (h : d ∈ escapeInValue c) :
    d ∈ referenceLetters ∨ d = c ∧ c ∉ ['<', '>', '\r', '"', '\n', '\t'] := by
  have hletters : ∀ spelling ∈ ["&quot;", "&#10;", "&#9;"],
      spelling.toList ⊆ referenceLetters := by decide
  simp only [List.forall_mem_cons] at hletters
  obtain ⟨hquot, hfeed, htab, -⟩ := hletters
  unfold escapeInValue at h
  split at h
  · exact .inl (hquot h)
  split at h
  · exact .inl (hfeed h)
  split at h
  · exact .inl (htab h)
  · rename_i hnotQuote hnotFeed hnotTab
    refine (mem_escapeInText h).imp_right fun ⟨heq, hc⟩ => ⟨heq, ?_⟩
    simp only [List.mem_cons, List.not_mem_nil, or_false, not_or] at hc ⊢
    exact ⟨hc.1, hc.2.1, hc.2.2, hnotQuote, hnotFeed, hnotTab⟩

section Escaped

variable {text : List Char} {c : Char}

theorem not_mem_flatMap_escapeInText (hc : c ∈ ['<', '>', '\r']) :
    c ∉ text.flatMap escapeInText := by
  have hletters : ∀ c ∈ ['<', '>', '\r'], c ∉ referenceLetters :=
    List.forall_iff_forall_mem.mp (by decide)
  intro hmem
  obtain ⟨d, -, hd⟩ := List.mem_flatMap.mp hmem
  rcases mem_escapeInText hd with h | ⟨rfl, h⟩
  · exact hletters c hc h
  · exact h hc

theorem not_mem_flatMap_escapeInValue (hc : c ∈ ['<', '>', '\r', '"', '\n', '\t']) :
    c ∉ text.flatMap escapeInValue := by
  have hletters : ∀ c ∈ ['<', '>', '\r', '"', '\n', '\t'], c ∉ referenceLetters :=
    List.forall_iff_forall_mem.mp (by decide)
  intro hmem
  obtain ⟨d, -, hd⟩ := List.mem_flatMap.mp hmem
  rcases mem_escapeInValue hd with h | ⟨rfl, h⟩
  · exact hletters c hc h
  · exact h hc

/-- Escaping keeps to the characters of XML. -/
theorem isCharacter_of_mem_escaped {escape : Char → List Char}
    (hescape : ∀ c d, d ∈ escape c → d ∈ referenceLetters ∨ d = c)
    (htext : ∀ c ∈ text, isCharacter c = true) :
    ∀ c ∈ text.flatMap escape, isCharacter c = true := by
  have hletters : ∀ c ∈ referenceLetters, isCharacter c = true :=
    List.forall_iff_forall_mem.mp (by decide)
  intro d hd
  obtain ⟨c, hc, hd⟩ := List.mem_flatMap.mp hd
  rcases hescape c d hd with h | rfl
  · exact hletters d h
  · exact htext d hc

end Escaped

/-- An escaped text is read as the text. -/
theorem textOf?_escaped (text : List Char) :
    textOf? (text.flatMap escapeInText) = some (String.ofList text) := by
  -- The end of a marked section has a greater-than sign, which is always escaped.
  have hclean : contains "]]>".toList (text.flatMap escapeInText) = false :=
    contains_eq_false (by decide : '>' ∈ "]]>".toList) (not_mem_flatMap_escapeInText (by decide))
  rw [textOf?, hclean, unescape?_flatMap spells_escapeInText]
  rfl

/-- An escaped value is read as the value: all its white space but for spaces is in references. -/
theorem valueOf?_escaped (text : List Char) :
    valueOf? (text.flatMap escapeInValue) = some (String.ofList text) := by
  have hspace : ∀ c ∈ text.flatMap escapeInValue, spaceFor c = c := by
    intro c hc
    have hother (d : Char) (hd : d ∈ ['<', '>', '\r', '"', '\n', '\t']) : c ≠ d := by
      rintro rfl
      exact not_mem_flatMap_escapeInValue hd hc
    have htab := hother '\t' (by decide)
    have hfeed := hother '\n' (by decide)
    have hreturn := hother '\r' (by decide)
    by_cases hblank : c = ' '
    · rw [hblank]
      rfl
    · rw [spaceFor, if_neg (by simp [isSpace, hblank, htab, hfeed, hreturn])]
  rw [valueOf?, List.map_congr_left hspace, List.map_id', unescape?_flatMap spells_escapeInValue]
  rfl

end GeoMetadata.Xml
