import GeoMetadata.Proofs.Xml.Escaping

/-!
# Tags are read again

A name ends at the first character that is no letter of names, and a value at the quote after it.
So the attributes of a tag are read one after the other to its end (`readAttributes?_written`).  No
tag has a less-than sign within (`not_mem_tag`), and what is cut at these signs is one tag and the
text after it (`tokens?_start`, `tokens?_end`).
-/

namespace GeoMetadata.Xml

open Text

/-! ## One tag -/

theorem isNameLetter_of_isNamePart {part : String} (h : isNamePart part = true) :
    ∀ c ∈ part.toList, isNameLetter c = true := by
  rw [isNamePart_eq_spellsNamePart] at h
  intro c hc
  rw [isNameLetter, isNameCharacter_of_spellsNamePart h c hc, Bool.true_or]

theorem isNameLetter_of_isPrefixedName {name : String} (h : isPrefixedName name = true) :
    ∀ c ∈ name.toList, isNameLetter c = true := by
  unfold isPrefixedName splitQualified at h
  rcases hcut : cutAt ':' name.toList with ⟨before, _ | after⟩
  · rw [hcut] at h
    exact isNameLetter_of_isNamePart h
  · rw [hcut, Bool.and_eq_true] at h
    have hbefore := isNameLetter_of_isNamePart h.1
    have hafter := isNameLetter_of_isNamePart h.2
    rw [String.toList_ofList] at hbefore hafter
    intro c hc
    rw [eq_append_of_cutAt_eq_some hcut, List.mem_append, List.mem_cons] at hc
    rcases hc with hc | rfl | hc
    · exact hbefore c hc
    · decide
    · exact hafter c hc

theorem toList_ne_nil_of_isPrefixedName {name : String} (h : isPrefixedName name = true) :
    name.toList ≠ [] := by
  intro hnil
  obtain rfl : name = "" := String.toList_inj.mp hnil
  revert h
  decide

/-- The characters that end a name. -/
theorem not_mem_of_isPrefixedName {name : String} {c : Char} (h : isPrefixedName name = true)
    (hc : isNameLetter c = false) : c ∉ name.toList := by
  intro hmem
  rw [isNameLetter_of_isPrefixedName h c hmem] at hc
  nomatch hc

/-- An attribute with its value as it is written. -/
def writeEntry (entry : String × String) : List Char := writeValue entry.1.toList entry.2

/-- The end of a tag. -/
def tagEnd (isEmpty : Bool) : List Char := if isEmpty then ['/', '>'] else ['>']

theorem writeEntry_eq (name value : String) :
    writeEntry (name, value) =
      ' ' :: (name.toList ++ '=' :: '"' :: (value.toList.flatMap escapeInValue ++ ['"'])) := by
  simp [writeEntry, writeValue]

theorem readAttribute?_written {name value : String} {rest : List Char}
    (hname : isPrefixedName name = true) :
    readAttribute? (name.toList ++ '=' :: '"' :: (value.toList.flatMap escapeInValue
        ++ '"' :: rest)) = some ((name, value), rest) := by
  have hletters := isNameLetter_of_isPrefixedName hname
  have hquote : '"' ∉ value.toList.flatMap escapeInValue :=
    not_mem_flatMap_escapeInValue (by decide)
  have hend : isNameLetter '=' = false := by decide
  have hsign (after : List Char) : ('=' :: after).dropWhile isSpace = '=' :: after := rfl
  have hopen (after : List Char) : ('"' :: after).dropWhile isSpace = '"' :: after := rfl
  simp only [readAttribute?, takeWhile_append_cons hletters hend,
    dropWhile_append_cons hletters hend, String.ofList_toList, hsign, hopen, hname,
    true_or, and_self, if_true, cutAt_append_cons hquote, valueOf?_escaped, Option.map_some]

/-- After white space, what does not end the tag is an attribute. -/
theorem readAttributes?_of_readAttribute? {c : Char} {text rest : List Char}
    {first : String × String} (hc : isNameLetter c = true)
    (hfirst : readAttribute? (c :: text) = some (first, rest)) :
    readAttributes? (' ' :: c :: text) = (readAttributes? rest).map fun (others, isEmpty, after) =>
      (first :: others, isEmpty, after) := by
  have hspace : isSpace c = false := by
    have hnone : ∀ d ∈ [' ', '\t', '\n', '\r'], isNameLetter d = false :=
      List.forall_iff_forall_mem.mp (by decide)
    have hother (d : Char) (hd : d ∈ [' ', '\t', '\n', '\r']) : c ≠ d := by
      rintro rfl
      rw [hnone c hd] at hc
      cases hc
    simp [isSpace, hother]
  have hdrop : (' ' :: c :: text).dropWhile isSpace = c :: text := by
    rw [List.dropWhile_cons_of_pos (by decide), List.dropWhile_cons_of_neg (by simp [hspace])]
  rw [readAttributes?]
  -- The first two cases are the two ends of a tag, which no name begins with.
  split
  · rename_i after heq
    obtain ⟨rfl, -⟩ := List.cons.inj (hdrop.symm.trans heq)
    exact absurd hc (by decide)
  · rename_i after heq
    obtain ⟨rfl, -⟩ := List.cons.inj (hdrop.symm.trans heq)
    exact absurd hc (by decide)
  · have hhead : (' ' :: c :: text).head?.any isSpace = true := rfl
    rw [if_pos hhead]
    split
    · rename_i found after hread
      rw [hdrop, hfirst] at hread
      obtain ⟨rfl, rfl⟩ := Prod.mk.inj (Option.some.inj hread)
      rfl
    · rename_i hread
      rw [hdrop, hfirst] at hread
      cases hread

/-- The attributes of a tag are read to its end. -/
theorem readAttributes?_written {entries : List (String × String)}
    (hnames : ∀ entry ∈ entries, isPrefixedName entry.1 = true) (isEmpty : Bool)
    (after : List Char) :
    readAttributes? (entries.flatMap writeEntry ++ (tagEnd isEmpty ++ after)) =
      some (entries, isEmpty, after) := by
  induction entries with
  | nil =>
      rw [List.flatMap_nil, List.nil_append, readAttributes?]
      cases isEmpty <;> rfl
  | cons entry rest ih =>
      obtain ⟨name, value⟩ := entry
      obtain ⟨hname, hrest⟩ := List.forall_mem_cons.mp hnames
      have hfirst := @readAttribute?_written name value
        (rest.flatMap writeEntry ++ (tagEnd isEmpty ++ after)) hname
      obtain ⟨c, others, hchars⟩ :=
        List.exists_cons_of_ne_nil (toList_ne_nil_of_isPrefixedName hname)
      have hc : isNameLetter c = true :=
        isNameLetter_of_isPrefixedName hname c (hchars ▸ List.mem_cons_self)
      rw [hchars, List.cons_append] at hfirst
      have hread := readAttributes?_of_readAttribute? hc hfirst
      rw [ih hrest, Option.map_some] at hread
      rw [← hread, List.flatMap_cons, writeEntry_eq, hchars]
      simp only [List.cons_append, List.append_assoc, List.nil_append]

variable {name : String} {entries : List (String × String)} {isEmpty : Bool} {rest : List Char}

/-- A start tag is read with its attributes, and together with the end tag if it is one for both. -/
theorem tagTokens?_start (hname : isPrefixedName name = true)
    (hnames : ∀ entry ∈ entries, isPrefixedName entry.1 = true)
    (hdistinct : (entries.map Prod.fst).Nodup) :
    tagTokens? (name.toList ++ (entries.flatMap writeEntry ++ (tagEnd isEmpty ++ rest))) =
      some (startTokens name entries isEmpty ++ textTokens rest) := by
  have hletters := isNameLetter_of_isPrefixedName hname
  -- What follows the name is a space or the end of the tag.
  obtain ⟨stop, tail, htail, hstop⟩ : ∃ stop tail,
      entries.flatMap writeEntry ++ (tagEnd isEmpty ++ rest) = stop :: tail ∧
        isNameLetter stop = false := by
    cases entries with
    | nil => cases isEmpty <;> exact ⟨_, _, rfl, by decide⟩
    | cons entry others =>
        refine ⟨' ', ?_, ?_, by decide⟩
        rotate_left
        rw [List.flatMap_cons, writeEntry_eq]
        rfl
  have hread := readAttributes?_written hnames isEmpty rest
  rw [htail] at hread ⊢
  have hnext : ∀ after, name.toList ++ stop :: tail ≠ '/' :: after := by
    intro after heq
    obtain ⟨c, others, hchars⟩ :=
      List.exists_cons_of_ne_nil (toList_ne_nil_of_isPrefixedName hname)
    rw [hchars] at heq
    obtain ⟨rfl, -⟩ := List.cons.inj heq
    exact not_mem_of_isPrefixedName hname (by decide : isNameLetter '/' = false)
      (hchars ▸ List.mem_cons_self)
  unfold tagTokens?
  split
  · rename_i after heq
    exact absurd heq (hnext after)
  · simp only [takeWhile_append_cons hletters hstop, dropWhile_append_cons hletters hstop, hread,
      String.ofList_toList, hname, hdistinct, and_self, if_true]

theorem tagTokens?_end (hname : isPrefixedName name = true) :
    tagTokens? ('/' :: (name.toList ++ '>' :: rest)) = some (.closing name :: textTokens rest) := by
  have hletters := isNameLetter_of_isPrefixedName hname
  have hend : isNameLetter '>' = false := by decide
  have hspace : ('>' :: rest).dropWhile isSpace = '>' :: rest := rfl
  simp only [tagTokens?, takeWhile_append_cons hletters hend, dropWhile_append_cons hletters hend,
    hspace, String.ofList_toList]

/-! ## Tags and texts -/

theorem map_append_map_append (first second : List Token) (tokens : Option (List Token)) :
    (tokens.map (second ++ ·)).map (first ++ ·) = tokens.map (first ++ second ++ ·) := by
  simp only [Option.map_map, Function.comp_def, List.append_assoc]

/-- A text before a tag. -/
theorem tokens?_text {raw after : List Char} (hraw : '<' ∉ raw) (hafter : after.head? = some '<') :
    tokens? (raw ++ after) = (tokens? after).map (textTokens raw ++ ·) := by
  obtain ⟨tail, rfl⟩ : ∃ tail, after = '<' :: tail := List.head?_eq_some_iff.mp hafter
  simp only [tokens?, splitAt_append_cons hraw, splitAt_cons_self, Option.map_map]
  rfl

/-- A tag, whatever follows it. -/
theorem tokens?_tag {body : List Char} {tag : List Token} (hbody : '<' ∉ body)
    (htag : ∀ after, tagTokens? (body ++ after) = some (tag ++ textTokens after)) :
    tokens? ('<' :: (body ++ rest)) = (tokens? rest).map (tag ++ ·) := by
  obtain ⟨first, pieces, hrest⟩ := exists_splitAt_eq_cons '<' rest
  simp only [tokens?, splitAt_cons_self, splitAt_append hbody hrest, hrest, List.mapM_cons, htag,
    Option.map_map]
  cases pieces.mapM tagTokens? <;> simp [textTokens]

/-! ## Tags among other tags -/

/-- The name and the attributes of an element can be written in a tag. -/
structure IsTag (name : String) (entries : List (String × String)) : Prop where
  name : isPrefixedName name = true
  names : ∀ entry ∈ entries, isPrefixedName entry.1 = true
  distinct : (entries.map Prod.fst).Nodup
  values : ∀ entry ∈ entries, isText entry.2 = true

/-- A tag is written with the letters of names, a few signs and escaped values. -/
theorem mem_tag {c : Char} (hname : isPrefixedName name = true)
    (hnames : ∀ entry ∈ entries, isPrefixedName entry.1 = true)
    (hc : c ∈ name.toList ++ (entries.flatMap writeEntry ++ tagEnd isEmpty)) :
    isNameLetter c = true ∨ c ∈ [' ', '=', '"', '/', '>'] ∨
      ∃ entry ∈ entries, c ∈ entry.2.toList.flatMap escapeInValue := by
  rw [List.mem_append, List.mem_append] at hc
  rcases hc with hc | hc | hc
  · exact .inl (isNameLetter_of_isPrefixedName hname c hc)
  · obtain ⟨⟨key, value⟩, hentry, hc⟩ := List.mem_flatMap.mp hc
    rw [writeEntry_eq] at hc
    simp only [List.mem_cons, List.mem_append, List.not_mem_nil, or_false] at hc
    rcases hc with rfl | hc | rfl | rfl | hc | rfl
    · exact .inr (.inl (by decide))
    · exact .inl (isNameLetter_of_isPrefixedName (hnames _ hentry) c hc)
    · exact .inr (.inl (by decide))
    · exact .inr (.inl (by decide))
    · exact .inr (.inr ⟨_, hentry, hc⟩)
    · exact .inr (.inl (by decide))
  · have hend : tagEnd isEmpty ⊆ [' ', '=', '"', '/', '>'] := by
      cases isEmpty <;> decide
    exact .inr (.inl (hend hc))

theorem not_mem_tag {c : Char} (hname : isPrefixedName name = true)
    (hnames : ∀ entry ∈ entries, isPrefixedName entry.1 = true) (hc : c ∈ ['<', '\r']) :
    c ∉ name.toList ++ (entries.flatMap writeEntry ++ tagEnd isEmpty) := by
  have hother : ∀ c ∈ ['<', '\r'], isNameLetter c = false ∧ c ∉ [' ', '=', '"', '/', '>'] ∧
      c ∈ ['<', '>', '\r', '"', '\n', '\t'] := List.forall_iff_forall_mem.mp (by decide)
  obtain ⟨hletter, hsign, hescaped⟩ := hother c hc
  intro hmem
  rcases mem_tag hname hnames hmem with h | h | ⟨entry, -, h⟩
  · rw [hletter] at h
    nomatch h
  · exact hsign h
  · exact not_mem_flatMap_escapeInValue hescaped h

/-- The start tag of an element, which is its end tag as well if the element is empty. -/
def startTag (name : String) (entries : List (String × String)) (isEmpty : Bool) : List Char :=
  '<' :: (name.toList ++ (entries.flatMap writeEntry ++ tagEnd isEmpty))

/-- The end tag of an element. -/
def endTag (name : String) : List Char := '<' :: '/' :: (name.toList ++ ['>'])

theorem tokens?_start (h : IsTag name entries) :
    tokens? (startTag name entries isEmpty ++ rest) =
      (tokens? rest).map (startTokens name entries isEmpty ++ ·) := by
  have hbody : '<' ∉ name.toList ++ (entries.flatMap writeEntry ++ tagEnd isEmpty) :=
    not_mem_tag h.name h.names (by decide)
  refine tokens?_tag hbody fun after => ?_
  rw [List.append_assoc, List.append_assoc]
  exact tagTokens?_start h.name h.names h.distinct

theorem tokens?_end (hname : isPrefixedName name = true) :
    tokens? (endTag name ++ rest) = (tokens? rest).map ([.closing name] ++ ·) := by
  have hbody : '<' ∉ '/' :: (name.toList ++ ['>']) := by
    have hletter := not_mem_of_isPrefixedName hname (by decide : isNameLetter '<' = false)
    simp [hletter]
  refine tokens?_tag hbody fun after => ?_
  rw [List.cons_append, List.append_assoc]
  exact tagTokens?_end hname

/-- An element whose start tag is followed by its content and its end tag. -/
theorem tokens?_element {inside : List Char} {content : List Token} (h : IsTag name entries)
    (hinside : tokens? inside = (tokens? (endTag name ++ rest)).map (content ++ ·)) :
    tokens? (startTag name entries false ++ inside) =
      (tokens? rest).map ((.opening name entries :: (content ++ [.closing name])) ++ ·) := by
  rw [tokens?_start h, hinside, tokens?_end h.name]
  simp only [startTokens, Option.map_map, Function.comp_def, List.append_assoc, List.cons_append,
    List.nil_append, Bool.false_eq_true, if_false]

end GeoMetadata.Xml
