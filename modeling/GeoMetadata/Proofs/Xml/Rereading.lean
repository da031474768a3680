import GeoMetadata.Proofs.Xml.Tags

/-!
# What is written is read again

An element whose names and texts can be written (`Element.Spelled`) is read as the markup that it
stands for (`read?_toText`).  The steps of reading are undone one by one:

* the tokens of an element come first in whatever begins with it (`tokens?_write`);
* nesting them gives one element (`nest_markup`);
* all characters are characters of XML, and no line break is changed (`isClean_write`).

The lines of the indented form are texts like others at this level (`gap`).
-/

namespace GeoMetadata.Xml

open Text

/-! ## Elements as markup -/

/-- The attribute that a declaration is written as. -/
def declarationEntry : Declaration → String × String
  | (none, uri) => ("xmlns", uri)
  | (some declared, uri) => ("xmlns:" ++ declared, uri)

@[simp] theorem snd_declarationEntry (declaration : Declaration) :
    (declarationEntry declaration).2 = declaration.2 := by
  obtain ⟨_ | declared, uri⟩ := declaration <;> rfl

/-- A name as it is written. -/
def writtenName (shownPrefix : Option String) (name : Name) : String :=
  String.ofList (shownName shownPrefix name.part)

/-- The attribute with its name as it is written. -/
def attributeEntry (attr : Attribute) : String × String :=
  (writtenName attr.shownPrefix attr.name, attr.value)

/-- The attributes of a start tag. -/
def writtenEntries (declarations : List Declaration) (attributes : List Attribute) :
    List (String × String) :=
  declarations.map declarationEntry ++ attributes.map attributeEntry

/-- What ends a line of the indented form. -/
def lineEnd (indented : Bool) : List Char := if indented then ['\n'] else []

/-- What a line of the indented form begins with. -/
def lineStart (indented : Bool) (level : Nat) : List Char :=
  if indented then indentation level else []

/-- What stands before an element or an end tag on a line of its own. -/
def spacing (indented : Bool) (level : Nat) : List Char :=
  lineEnd indented ++ lineStart indented level

/-- A text, unless it is empty. -/
def textMarkup (text : String) : List Markup := if text = "" then [] else [.text text]

/-- The text that the spacing is read as. -/
def gap (indented : Bool) (level : Nat) : List Markup :=
  textMarkup (String.ofList (spacing indented level))

@[simp] theorem gap_false (level : Nat) : gap false level = [] := rfl

namespace Element

mutual

/-- The markup of an element that stands at a level. -/
def markup (indented : Bool) (level : Nat) : Element → Markup
  | ⟨name, shownPrefix, declarations, attributes, text, children⟩ =>
    .element (writtenName shownPrefix name) (writtenEntries declarations attributes)
      (match text, children with
        | none, [] => []
        | some text, children => textMarkup text ++ markupAll false (level + 1) children
        | none, children => markupAll indented (level + 1) children ++ gap indented level)

/-- The markup of the children of an element. -/
def markupAll (indented : Bool) (level : Nat) : List Element → List Markup
  | [] => []
  | child :: rest =>
    gap indented level ++ markup indented level child :: markupAll indented level rest

end

mutual

/-- The names and texts of an element and of all elements below it can be written. -/
def Spelled : Element → Prop
  | ⟨name, shownPrefix, declarations, attributes, text, children⟩ =>
    IsTag (writtenName shownPrefix name) (writtenEntries declarations attributes) ∧
      (∀ declaration ∈ declarations, declaration.1 ≠ some "xml") ∧
      (∀ written ∈ text, isText written = true) ∧ AllSpelled children

/-- The names and texts of some elements can be written. -/
def AllSpelled : List Element → Prop
  | [] => True
  | element :: rest => Spelled element ∧ AllSpelled rest

end

end Element

/-! ## The tokens of an element -/

mutual

/-- The tags and texts of some markup. -/
def Markup.tokens : Markup → List Token
  | .element name attributes content =>
    .opening name attributes :: (Markup.tokensOfAll content ++ [.closing name])
  | .text written => textTokens (written.toList.flatMap escapeInText)

/-- The tags and texts of some markup, one after the other. -/
def Markup.tokensOfAll : List Markup → List Token
  | [] => []
  | first :: rest => first.tokens ++ Markup.tokensOfAll rest

end

theorem tokensOfAll_append (first second : List Markup) :
    Markup.tokensOfAll (first ++ second) =
      Markup.tokensOfAll first ++ Markup.tokensOfAll second := by
  induction first with
  | nil => rfl
  | cons markup rest ih =>
      rw [List.cons_append, Markup.tokensOfAll, ih, Markup.tokensOfAll, List.append_assoc]

theorem mem_spacing {indented : Bool} {level : Nat} {c : Char} (hc : c ∈ spacing indented level) :
    c = '\n' ∨ c = ' ' := by
  cases indented with
  | false => nomatch hc
  | true =>
      rcases List.mem_cons.mp hc with rfl | hc
      · exact .inl rfl
      · exact .inr (List.eq_of_mem_replicate hc)

/-- Spacing needs no escapes. -/
theorem flatMap_escapeInText_spacing (indented : Bool) (level : Nat) :
    (spacing indented level).flatMap escapeInText = spacing indented level := by
  have hone : ∀ c ∈ spacing indented level, escapeInText c = [c] := by
    intro c hc
    rcases mem_spacing hc with rfl | rfl <;> rfl
  rw [List.flatMap_congr hone, List.flatMap_singleton']

theorem tokensOfAll_textMarkup (text : String) :
    Markup.tokensOfAll (textMarkup text) = textTokens (text.toList.flatMap escapeInText) := by
  unfold textMarkup
  split
  · subst text
    rfl
  · exact List.append_nil _

theorem tokensOfAll_gap (indented : Bool) (level : Nat) :
    Markup.tokensOfAll (gap indented level) = textTokens (spacing indented level) := by
  rw [gap, tokensOfAll_textMarkup, String.toList_ofList, flatMap_escapeInText_spacing]

theorem head?_write_append (indented : Bool) (level : Nat) (element : Element) (rest : List Char) :
    (element.write indented level ++ rest).head? = some '<' := by
  obtain ⟨name, shownPrefix, declarations, attributes, text, children⟩ := element
  unfold Element.write
  split <;> rfl

section Writing

variable {indented : Bool} {level : Nat} {name : Name} {shownPrefix : Option String}
  {declarations : List Declaration} {attributes : List Attribute}

/-- The inside of a start tag is its name and its attributes. -/
theorem startTag_eq (hxml : ∀ declaration ∈ declarations, declaration.1 ≠ some "xml")
    (isEmpty : Bool) :
    startTag (writtenName shownPrefix name) (writtenEntries declarations attributes) isEmpty =
      '<' :: shownName shownPrefix name.part ++ declarations.flatMap writeDeclaration
        ++ attributes.flatMap writeAttribute ++ tagEnd isEmpty := by
  have hdeclarations : declarations.flatMap writeDeclaration =
      (declarations.map declarationEntry).flatMap writeEntry := by
    rw [List.flatMap_map]
    refine List.flatMap_congr fun declaration hdeclaration => ?_
    obtain ⟨_ | declared, uri⟩ := declaration
    · rfl
    · have hne : declared ≠ "xml" := fun heq => hxml _ hdeclaration (congrArg some heq)
      rw [writeDeclaration, if_neg hne, writeEntry, declarationEntry, String.toList_append]
  have hattributes : attributes.flatMap writeAttribute =
      (attributes.map attributeEntry).flatMap writeEntry := by
    rw [List.flatMap_map]
    refine List.flatMap_congr fun attr _ => ?_
    rw [writeAttribute, writeEntry, attributeEntry, writtenName, String.toList_ofList]
  rw [startTag, writtenName, writtenEntries, hdeclarations, hattributes, String.toList_ofList]
  simp only [List.flatMap_append, List.append_assoc, List.cons_append]

variable (hxml : ∀ declaration ∈ declarations, declaration.1 ≠ some "xml")

include hxml

theorem write_empty :
    Element.write indented level ⟨name, shownPrefix, declarations, attributes, none, []⟩ =
      startTag (writtenName shownPrefix name) (writtenEntries declarations attributes) true := by
  rw [startTag_eq hxml]
  rfl

theorem write_children (child : Element) (others : List Element) :
    Element.write indented level
        ⟨name, shownPrefix, declarations, attributes, none, child :: others⟩ =
      startTag (writtenName shownPrefix name) (writtenEntries declarations attributes) false
        ++ (lineEnd indented ++ (Element.writeAll indented (level + 1) (child :: others)
          ++ (lineStart indented level ++ endTag (writtenName shownPrefix name)))) := by
  rw [startTag_eq hxml]
  simp [Element.write, tagEnd, lineEnd, lineStart, endTag, writtenName]

theorem write_text (written : String) (children : List Element) :
    Element.write indented level
        ⟨name, shownPrefix, declarations, attributes, some written, children⟩ =
      startTag (writtenName shownPrefix name) (writtenEntries declarations attributes) false
        ++ (written.toList.flatMap escapeInText ++ (Element.writeAll false (level + 1) children
          ++ endTag (writtenName shownPrefix name))) := by
  rw [startTag_eq hxml]
  simp [Element.write, tagEnd, endTag, writtenName]

end Writing

theorem writeAll_cons (indented : Bool) (level : Nat) (child : Element) (rest : List Element) :
    Element.writeAll indented level (child :: rest) =
      lineStart indented level ++ (child.write indented level
        ++ (lineEnd indented ++ Element.writeAll indented level rest)) := by
  rw [Element.writeAll]
  cases indented <;> simp [lineStart, lineEnd]

theorem lt_not_mem_spacing (indented : Bool) (level : Nat) : '<' ∉ spacing indented level := by
  intro hmem
  rcases mem_spacing hmem with h | h <;> exact absurd h (by decide)

/-- The content of an element is followed by its end tag, so that it never ends in the midst of a
text. -/
theorem head?_writeAll_append (level : Nat) (children : List Element) {rest : List Char}
    (hrest : rest.head? = some '<') :
    (Element.writeAll false level children ++ rest).head? = some '<' := by
  cases children with
  | nil => exact hrest
  | cons child others =>
      rw [Element.writeAll, if_neg (by decide), List.append_assoc]
      exact head?_write_append false level child _

mutual

/-- The tokens of an element come first in a text that begins with it. -/
theorem tokens?_write (indented : Bool) (level : Nat) (element : Element) (h : element.Spelled)
    (rest : List Char) :
    tokens? (element.write indented level ++ rest) =
      (tokens? rest).map ((element.markup indented level).tokens ++ ·) := by
  obtain ⟨name, shownPrefix, declarations, attributes, text, children⟩ := element
  rw [Element.Spelled] at h
  obtain ⟨htag, hxml, -, hchildren⟩ := h
  cases text with
  | none =>
      cases children with
      | nil =>
          rw [write_empty hxml, tokens?_start htag]
          rfl
      | cons child others =>
          -- The end tag stands on a line of its own, so that there is a last gap before it.
          have hlast : lineEnd indented
              ++ (lineStart indented level ++ (endTag (writtenName shownPrefix name) ++ rest)) =
                spacing indented level ++ (endTag (writtenName shownPrefix name) ++ rest) :=
            (List.append_assoc _ _ _).symm
          have hcontent := tokens?_writeAll indented (level + 1) (child :: others) hchildren
            (lineStart indented level ++ (endTag (writtenName shownPrefix name) ++ rest))
          rw [hlast, tokens?_text (lt_not_mem_spacing _ _) rfl, map_append_map_append] at hcontent
          rw [write_children hxml]
          simp only [List.append_assoc]
          rw [tokens?_element htag hcontent]
          simp only [Element.markup, Markup.tokens, tokensOfAll_append, tokensOfAll_gap]
  | some written =>
      have htext : '<' ∉ written.toList.flatMap escapeInText :=
        not_mem_flatMap_escapeInText (by decide)
      have hnext : (Element.writeAll false (level + 1) children
          ++ (endTag (writtenName shownPrefix name) ++ rest)).head? = some '<' :=
        head?_writeAll_append (level + 1) children rfl
      have hbelow : tokens? (Element.writeAll false (level + 1) children
          ++ (endTag (writtenName shownPrefix name) ++ rest)) =
            (tokens? (endTag (writtenName shownPrefix name) ++ rest)).map
              (Markup.tokensOfAll (Element.markupAll false (level + 1) children) ++ ·) :=
        tokens?_writeAll false (level + 1) children hchildren _
      have hcontent := tokens?_text htext hnext
      rw [hbelow, map_append_map_append] at hcontent
      rw [write_text hxml]
      simp only [List.append_assoc]
      rw [tokens?_element htag hcontent]
      simp only [Element.markup, Markup.tokens, tokensOfAll_append, tokensOfAll_textMarkup]

/-- Each child is followed by what stands before the next one or before the end tag. -/
theorem tokens?_writeAll (indented : Bool) (level : Nat) (children : List Element)
    (h : Element.AllSpelled children) (rest : List Char) :
    tokens? (lineEnd indented ++ (Element.writeAll indented level children ++ rest)) =
      (tokens? (lineEnd indented ++ rest)).map
        (Markup.tokensOfAll (Element.markupAll indented level children) ++ ·) := by
  cases children with
  | nil =>
      rw [Element.writeAll, List.nil_append, Element.markupAll, Markup.tokensOfAll]
      simp
  | cons child others =>
      rw [Element.AllSpelled] at h
      have hspacing : lineEnd indented
          ++ (Element.writeAll indented level (child :: others) ++ rest) =
          spacing indented level ++ (child.write indented level
            ++ (lineEnd indented ++ (Element.writeAll indented level others ++ rest))) := by
        simp only [writeAll_cons, spacing, List.append_assoc]
      have hothers := tokens?_writeAll indented level others h.2 rest
      have hfirst := tokens?_write indented level child h.1
        (lineEnd indented ++ (Element.writeAll indented level others ++ rest))
      rw [hothers, map_append_map_append] at hfirst
      rw [hspacing, tokens?_text (lt_not_mem_spacing _ _) (head?_write_append _ _ _ _), hfirst,
        map_append_map_append, Element.markupAll, tokensOfAll_append, tokensOfAll_gap,
        Markup.tokensOfAll]

end

/-! ## Nesting -/

theorem add_nil (outer : OpenElement) : outer.add [] = outer := by
  rw [OpenElement.add, List.append_nil]

theorem add_add (outer : OpenElement) (first second : List Markup) :
    (outer.add first).add second = outer.add (first ++ second) := by
  rw [OpenElement.add, OpenElement.add, OpenElement.add, List.append_assoc]

section Nesting

variable {inner outer : OpenElement} {opened : List OpenElement}

/-- An escaped text within an element is added to it. -/
theorem foldlM_nest?_textTokens (written : String) :
    (textTokens (written.toList.flatMap escapeInText)).foldlM nest? (inner :: outer :: opened) =
      some (inner.add (textMarkup written) :: outer :: opened) := by
  unfold textTokens textMarkup
  by_cases hempty : written = ""
  · subst hempty
    rw [if_pos rfl, add_nil]
    rfl
  · have hne : written.toList.flatMap escapeInText ≠ [] := by
      intro hnil
      have hread := textOf?_escaped written.toList
      rw [hnil, String.ofList_toList] at hread
      exact hempty (Option.some.inj hread).symm
    have hread := textOf?_escaped written.toList
    rw [String.ofList_toList] at hread
    rw [if_neg hne, if_neg hempty, List.foldlM_cons, nest?, hread]
    rfl

theorem foldlM_nest?_gap (indented : Bool) (level : Nat) :
    (Markup.tokensOfAll (gap indented level)).foldlM nest? (inner :: outer :: opened) =
      some (inner.add (gap indented level) :: outer :: opened) := by
  rw [gap, tokensOfAll_textMarkup, foldlM_nest?_textTokens]

/-- The tokens of an element whose content is nested within it. -/
theorem nest_element {name : String} {attributes : List (String × String)} {content : List Markup}
    (hcontent : (Markup.tokensOfAll content).foldlM nest?
        (⟨name, attributes, []⟩ :: outer :: opened) =
      some (⟨name, attributes, content⟩ :: outer :: opened)) :
    (Markup.element name attributes content).tokens.foldlM nest? (outer :: opened) =
      some (outer.add [.element name attributes content] :: opened) := by
  rw [Markup.tokens, List.foldlM_cons]
  show (Markup.tokensOfAll content ++ [Token.closing name]).foldlM nest?
    (⟨name, attributes, []⟩ :: outer :: opened) = _
  rw [List.foldlM_append, hcontent]
  simp [nest?]

end Nesting

mutual

/-- The tokens of an element add it to the element that is open around it. -/
theorem nest_markup (indented : Bool) (level : Nat) (element : Element) (outer : OpenElement)
    (opened : List OpenElement) :
    (element.markup indented level).tokens.foldlM nest? (outer :: opened) =
      some (outer.add [element.markup indented level] :: opened) := by
  obtain ⟨name, shownPrefix, declarations, attributes, text, children⟩ := element
  cases text with
  | none =>
      cases children with
      | nil => exact nest_element rfl
      | cons child others =>
          refine nest_element ?_
          rw [tokensOfAll_append, List.foldlM_append, nest_markupAll]
          show (Markup.tokensOfAll (gap indented level)).foldlM nest? _ = _
          rw [foldlM_nest?_gap, add_add]
          rfl
  | some written =>
      refine nest_element ?_
      rw [tokensOfAll_append, List.foldlM_append, tokensOfAll_textMarkup, foldlM_nest?_textTokens]
      show (Markup.tokensOfAll (Element.markupAll false (level + 1) children)).foldlM nest? _ = _
      rw [nest_markupAll, add_add]
      rfl

theorem nest_markupAll (indented : Bool) (level : Nat) (children : List Element)
    (inner outer : OpenElement) (opened : List OpenElement) :
    (Markup.tokensOfAll (Element.markupAll indented level children)).foldlM nest?
        (inner :: outer :: opened) =
      some (inner.add (Element.markupAll indented level children) :: outer :: opened) := by
  cases children with
  | nil =>
      rw [Element.markupAll, Markup.tokensOfAll, add_nil]
      rfl
  | cons child rest =>
      rw [Element.markupAll, tokensOfAll_append, Markup.tokensOfAll, List.foldlM_append,
        foldlM_nest?_gap]
      show ((Element.markup indented level child).tokens ++ _).foldlM nest? _ = _
      rw [List.foldlM_append, nest_markup]
      show (Markup.tokensOfAll (Element.markupAll indented level rest)).foldlM nest? _ = _
      rw [nest_markupAll, add_add, add_add]
      rfl

end

/-! ## Characters -/

/-- The text is made of characters of XML, and of none that is a line break but for line feeds. -/
def IsClean (text : List Char) : Prop := ∀ c ∈ text, isCharacter c = true ∧ c ≠ '\r'

theorem isClean_append {first second : List Char} :
    IsClean (first ++ second) ↔ IsClean first ∧ IsClean second := List.forall_mem_append

theorem isClean_cons {c : Char} {text : List Char} :
    IsClean (c :: text) ↔ (isCharacter c = true ∧ c ≠ '\r') ∧ IsClean text := List.forall_mem_cons

theorem isClean_escaped {text : String} (htext : isText text = true) :
    IsClean (text.toList.flatMap escapeInText) := by
  rw [isText, List.all_eq_true] at htext
  intro c hc
  refine ⟨isCharacter_of_mem_escaped (fun c d hd => (mem_escapeInText hd).imp_right And.left)
    htext c hc, ?_⟩
  rintro rfl
  exact not_mem_flatMap_escapeInText (by decide) hc

theorem isCharacter_of_isNameLetter {c : Char} (h : isNameLetter c = true) :
    isCharacter c = true := by
  have hranges : ∀ r ∈ nameStartRanges ++ nameExtraRanges, ∃ s ∈ characterRanges,
      s.1 ≤ r.1 ∧ r.2 ≤ s.2 := by decide
  rw [List.forall_mem_append] at hranges
  simp only [isNameLetter, isNameCharacter, Bool.or_eq_true, beq_iff_eq] at h
  rcases h with (h | h) | rfl
  · exact inRanges_of_le hranges.1 h
  · exact inRanges_of_le hranges.2 h
  · decide

section Tags

variable {name : String} {entries : List (String × String)}

theorem isClean_startTag (h : IsTag name entries) (isEmpty : Bool) :
    IsClean (startTag name entries isEmpty) := by
  have hsigns : ∀ c ∈ [' ', '=', '"', '/', '>'], isCharacter c = true :=
    List.forall_iff_forall_mem.mp (by decide)
  refine isClean_cons.mpr ⟨by decide, fun c hc => ?_⟩
  refine ⟨?_, fun hreturn => not_mem_tag h.name h.names (by simp [hreturn]) hc⟩
  rcases mem_tag h.name h.names hc with hletter | hsign | ⟨entry, hentry, hescaped⟩
  · exact isCharacter_of_isNameLetter hletter
  · exact hsigns c hsign
  · have hvalue := h.values entry hentry
    rw [isText, List.all_eq_true] at hvalue
    exact isCharacter_of_mem_escaped (fun c d hd => (mem_escapeInValue hd).imp_right And.left)
      hvalue c hescaped

theorem isClean_endTag (hname : isPrefixedName name = true) : IsClean (endTag name) := by
  have hletters : IsClean name.toList := by
    intro c hc
    refine ⟨isCharacter_of_isNameLetter (isNameLetter_of_isPrefixedName hname c hc), ?_⟩
    rintro rfl
    exact not_mem_of_isPrefixedName hname (by decide) hc
  rw [endTag, isClean_cons, isClean_cons, isClean_append]
  exact ⟨by decide, by decide, hletters, isClean_cons.mpr ⟨by decide, fun c hc => nomatch hc⟩⟩

end Tags

theorem isClean_spacing (indented : Bool) (level : Nat) : IsClean (spacing indented level) := by
  intro c hc
  rcases mem_spacing hc with rfl | rfl <;> decide

theorem isClean_lineEnd (indented : Bool) : IsClean (lineEnd indented) :=
  (isClean_append.mp (isClean_spacing indented 0)).1

theorem isClean_lineStart (indented : Bool) (level : Nat) : IsClean (lineStart indented level) :=
  (isClean_append.mp (isClean_spacing indented level)).2

mutual

theorem isClean_write (indented : Bool) (level : Nat) (element : Element) (h : element.Spelled) :
    IsClean (element.write indented level) := by
  obtain ⟨name, shownPrefix, declarations, attributes, text, children⟩ := element
  rw [Element.Spelled] at h
  obtain ⟨htag, hxml, htext, hchildren⟩ := h
  have hend := isClean_endTag htag.name
  cases text with
  | none =>
      cases children with
      | nil =>
          rw [write_empty hxml]
          exact isClean_startTag htag true
      | cons child others =>
          have hbelow := isClean_writeAll indented (level + 1) (child :: others) hchildren
          simp only [write_children hxml, isClean_append]
          exact ⟨isClean_startTag htag false, isClean_lineEnd indented, hbelow,
            isClean_lineStart indented level, hend⟩
  | some written =>
      have hbelow := isClean_writeAll false (level + 1) children hchildren
      simp only [write_text hxml, isClean_append]
      exact ⟨isClean_startTag htag false, isClean_escaped (htext written rfl), hbelow, hend⟩

theorem isClean_writeAll (indented : Bool) (level : Nat) (children : List Element)
    (h : Element.AllSpelled children) : IsClean (Element.writeAll indented level children) := by
  cases children with
  | nil => exact fun c hc => nomatch hc
  | cons child rest =>
      rw [Element.AllSpelled] at h
      simp only [writeAll_cons, isClean_append]
      exact ⟨isClean_lineStart indented level, isClean_write indented level child h.1,
        isClean_lineEnd indented, isClean_writeAll indented level rest h.2⟩

end

/-! ## Texts of elements -/

theorem breakLines_eq_self {text : List Char} (h : '\r' ∉ text) : Utf8.breakLines text = text := by
  fun_induction Utf8.breakLines text with
  | case1 => rfl
  | case2 rest ih => exact absurd List.mem_cons_self h
  | case3 rest hnext ih => exact absurd List.mem_cons_self h
  | case4 c rest hpair hreturn ih => rw [ih (List.not_mem_of_not_mem_cons h)]

/-- The line feed after the last line is no part of the root element. -/
theorem markup?_tokens (indented : Bool) (element : Element) :
    markup? ((element.markup indented 0).tokens ++ textTokens (lineEnd indented)) =
      some (element.markup indented 0) := by
  have hnested : ((element.markup indented 0).tokens ++ textTokens (lineEnd indented)).foldlM nest?
      [outermost] = some [outermost.add [element.markup indented 0]] := by
    rw [List.foldlM_append, nest_markup]
    cases indented <;> rfl
  rw [markup?, hnested]
  rfl

/-- The text of an element is read as the markup of the element. -/
theorem read?_toText (indented : Bool) {element : Element} (h : element.Spelled) :
    read? (element.toText indented) = resolve? [] (element.markup indented 0) := by
  let chars : List Char := element.write indented 0 ++ lineEnd indented
  have hclean : IsClean chars :=
    isClean_append.mpr ⟨isClean_write indented 0 element h, isClean_lineEnd indented⟩
  have hbreaks : Utf8.breakLines chars = chars :=
    breakLines_eq_self fun hmem => (hclean _ hmem).2 rfl
  have hcharacters : chars.all isCharacter = true :=
    List.all_eq_true.mpr fun c hc => (hclean c hc).1
  have hlast : tokens? (lineEnd indented) = some (textTokens (lineEnd indented)) := by
    cases indented <;> rfl
  have htokens : tokens? chars =
      some ((element.markup indented 0).tokens ++ textTokens (lineEnd indented)) := by
    rw [tokens?_write indented 0 element h, hlast, Option.map_some]
  have htext : (element.toText indented).toList = chars := String.toList_ofList
  simp only [read?, htext, hbreaks, hcharacters, if_true, htokens]
  show markup? _ >>= resolve? [] = _
  rw [markup?_tokens]
  rfl

end GeoMetadata.Xml
