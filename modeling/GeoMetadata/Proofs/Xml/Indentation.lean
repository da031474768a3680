import GeoMetadata.Proofs.Xml.Rereading

/-!
# Indentation adds white space beside elements

The indented form of an element is read as the other form, but for texts of white space that stand
beside elements (`exists_resolve?_indented`).  It takes that no element has both a text and children
(`Element.Unmixed`): the content of an element that has a text is kept in one line, and a text of
white space that was written there would be dropped with the others.
-/

namespace GeoMetadata.Xml

variable {scope : List Declaration}

/-! ## White space beside elements -/

namespace Item

/-- The item is an element. -/
def isElement : Item → Bool
  | .element .. => true
  | .text _ => false

/-- The item is a text of white space. -/
def isBlank : Item → Bool
  | .element .. => false
  | .text written => written.toList.all isSpace

mutual

/-- The item without the texts of white space that stand beside elements. -/
def withoutBlanks : Item → Item
  | .text written => .text written
  | .element name shownPrefix declarations attributes content =>
    .element name shownPrefix declarations attributes
      (if content.any isElement then allWithoutBlanks content else content)

/-- What stands beside elements, without texts of white space. -/
def allWithoutBlanks : List Item → List Item
  | [] => []
  | first :: rest =>
    if first.isBlank then allWithoutBlanks rest else first.withoutBlanks :: allWithoutBlanks rest

end

theorem allWithoutBlanks_append (first second : List Item) :
    allWithoutBlanks (first ++ second) = allWithoutBlanks first ++ allWithoutBlanks second := by
  induction first with
  | nil => rfl
  | cons item rest ih =>
      rw [List.cons_append, allWithoutBlanks, allWithoutBlanks, ih]
      split <;> rfl

end Item

/-- A text, unless it is empty. -/
def textItems (text : String) : List Item := if text = "" then [] else [.text text]

theorem resolveAll?_textMarkup (text : String) :
    resolveAll? scope (textMarkup text) = some (textItems text) := by
  unfold textMarkup textItems
  split <;> rfl

theorem any_isElement_textItems (text : String) : (textItems text).any Item.isElement = false := by
  unfold textItems
  split <;> rfl

theorem allWithoutBlanks_spacing (indented : Bool) (level : Nat) :
    Item.allWithoutBlanks (textItems (String.ofList (spacing indented level))) = [] := by
  have hblank : (Item.text (String.ofList (spacing indented level))).isBlank = true := by
    rw [Item.isBlank, String.toList_ofList, List.all_eq_true]
    intro c hc
    rcases mem_spacing hc with rfl | rfl <;> rfl
  unfold textItems
  split
  · rfl
  · rw [Item.allWithoutBlanks, if_pos hblank]
    rfl

namespace Element

mutual

/-- No element has both a text and children. -/
def Unmixed : Element → Prop
  | ⟨_, _, _, _, text, children⟩ => (text = none ∨ children = []) ∧ AllUnmixed children

/-- None of some elements, and no element below them, has both a text and children. -/
def AllUnmixed : List Element → Prop
  | [] => True
  | element :: rest => Unmixed element ∧ AllUnmixed rest

end

end Element

theorem isElement_of_resolve?_markup {indented : Bool} {level : Nat} {element : Element}
    {item : Item} (h : resolve? scope (element.markup indented level) = some item) :
    item.isElement = true := by
  obtain ⟨name, shownPrefix, declarations, attributes, text, children⟩ := element
  unfold Element.markup at h
  obtain ⟨-, found, shown, items, -, -, -, rfl⟩ := resolve?_element_eq_some_iff.mp h
  rfl

/-- The content of an element, changed in texts of white space only. -/
theorem exists_resolve?_of_content {name : String} {attributes : List (String × String)}
    {content spaced : List Markup} {item : Item}
    (h : resolve? scope (.element name attributes content) = some item)
    (hspaced : ∀ items, resolveAll? (declaredBy attributes ++ scope) content = some items →
      ∃ more, resolveAll? (declaredBy attributes ++ scope) spaced = some more ∧
        (if more.any Item.isElement then Item.allWithoutBlanks more else more) = items) :
    ∃ more, resolve? scope (.element name attributes spaced) = some more ∧
      more.withoutBlanks = item := by
  obtain ⟨hallowed, found, shown, items, hfound, hshown, hitems, rfl⟩ :=
    resolve?_element_eq_some_iff.mp h
  obtain ⟨more, hmore, hsame⟩ := hspaced items hitems
  refine ⟨.element found (splitQualified name).1 (declaredBy attributes) shown more, ?_, ?_⟩
  · exact resolve?_element_eq_some_iff.mpr
      ⟨hallowed, found, shown, more, hfound, hshown, hmore, rfl⟩
  · rw [Item.withoutBlanks, hsame]

mutual

/-- What is read of the indented form is what is read of the other, but for texts of white space
beside elements. -/
theorem exists_resolve?_indented {scope : List Declaration} (level : Nat) (element : Element)
    (hunmixed : element.Unmixed) {item : Item}
    (h : resolve? scope (element.markup false level) = some item) :
    ∃ spaced, resolve? scope (element.markup true level) = some spaced ∧
      spaced.withoutBlanks = item := by
  obtain ⟨name, shownPrefix, declarations, attributes, text, children⟩ := element
  rw [Element.Unmixed] at hunmixed
  obtain ⟨hone, hchildren⟩ := hunmixed
  unfold Element.markup at h ⊢
  refine exists_resolve?_of_content h fun items hitems => ?_
  cases text with
  | none =>
      cases children with
      | nil =>
          obtain rfl := Option.some.inj hitems
          exact ⟨[], rfl, rfl⟩
      | cons child others =>
          simp only [gap_false, List.append_nil] at hitems
          obtain ⟨more, hmore, hsame, hany⟩ :=
            exists_resolveAll?_indented (level + 1) (child :: others) hchildren hitems
          refine ⟨_, resolveAll?_append hmore (resolveAll?_textMarkup _), ?_⟩
          rw [List.any_append, hany (List.cons_ne_nil _ _), Bool.true_or, if_pos rfl,
            Item.allWithoutBlanks_append, allWithoutBlanks_spacing, List.append_nil, hsame]
  | some written =>
      obtain rfl := hone.resolve_left (Option.some_ne_none written)
      -- The content is the text, in both forms.
      simp only [Element.markupAll, List.append_nil] at hitems ⊢
      refine ⟨items, hitems, ?_⟩
      rw [resolveAll?_textMarkup] at hitems
      obtain rfl := Option.some.inj hitems
      rw [any_isElement_textItems]
      rfl

theorem exists_resolveAll?_indented {scope : List Declaration} (level : Nat)
    (children : List Element) (hunmixed : Element.AllUnmixed children) {items : List Item}
    (h : resolveAll? scope (Element.markupAll false level children) = some items) :
    ∃ spaced, resolveAll? scope (Element.markupAll true level children) = some spaced ∧
      Item.allWithoutBlanks spaced = items ∧
      (children ≠ [] → spaced.any Item.isElement = true) := by
  cases children with
  | nil =>
      obtain rfl := Option.some.inj h
      exact ⟨[], rfl, rfl, fun hne => absurd rfl hne⟩
  | cons child rest =>
      rw [Element.AllUnmixed] at hunmixed
      rw [Element.markupAll, gap_false, List.nil_append] at h
      obtain ⟨item, others, hitem, hothers, rfl⟩ := resolveAll?_cons_eq_some_iff.mp h
      obtain ⟨first, hfirst, rfl⟩ := exists_resolve?_indented level child hunmixed.1 hitem
      obtain ⟨more, hmore, rfl, -⟩ := exists_resolveAll?_indented level rest hunmixed.2 hothers
      have helement := isElement_of_resolve?_markup hfirst
      have hblank : first.isBlank = false := by
        cases first with
        | element => rfl
        | text => nomatch helement
      -- The gap before the child is blank, and the child itself is not.
      have hbefore := @resolveAll?_textMarkup scope (String.ofList (spacing true level))
      have hall := resolveAll?_append hbefore
        (resolveAll?_cons_eq_some_iff.mpr ⟨first, more, hfirst, hmore, rfl⟩)
      refine ⟨_, hall, ?_, fun _ => ?_⟩
      · rw [Item.allWithoutBlanks_append, allWithoutBlanks_spacing, List.nil_append,
          Item.allWithoutBlanks, hblank]
        rfl
      · rw [List.any_append, List.any_cons, helement, Bool.true_or, Bool.or_true]

end

end GeoMetadata.Xml
