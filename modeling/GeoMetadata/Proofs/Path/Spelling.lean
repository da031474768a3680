import GeoMetadata.Path.Reading
import GeoMetadata.Proofs.Number.IntegerText
import GeoMetadata.Proofs.Text.Pieces

/-!
# How paths and their segments are spelled

A path is spelled as its segments, each with a slash before it (`IsPartedInto`); if it is not, it is
refused for its form (`isPartedInto_or_form`), and otherwise its segments decide
(`read_eq_readSegments`).

An element is spelled as its name, or as its name and an index in brackets, after which a line break
may stand (`IsBracketed`).  Every other text is refused for its form (`readElement_cases`).  An
index is refused for its form if it is not made of digits or is zero.  What is left are the digits
that make no number: some of the characters that count as digits are not decimal, and there may be
too many (`IsUnreadable`).  On them alone a segment is neither read nor refused for its form
(`readElement_eq_integer_iff`).
-/

namespace GeoMetadata.Path

open Number Text

variable {text name index ending : List Char} {path : String} {texts : List (List Char)}

/-! ## Indices -/

/-- Digits that make no number: one of them is not decimal, or there are too many. -/
structure IsUnreadable (index : List Char) : Prop where
  ne_nil : index ≠ []
  digits : ∀ c ∈ index, isDigit c = true
  unreadable : (∃ c ∈ index, digitValue? c = none) ∨ digitLimit < index.length

theorem readIndex_eq_ok_iff {n : Nat} :
    readIndex text index = .ok n ↔
      index.length ≤ digitLimit ∧ readDigits? index = some n ∧ 0 < n := by
  unfold readIndex
  split
  · rename_i hform
    refine iff_of_false (by simp) fun ⟨_, hread, hpositive⟩ => ?_
    rcases hform with rfl | hdigits
    · obtain rfl : 0 = n := Option.some.inj hread
      exact absurd hpositive (Nat.lt_irrefl 0)
    · exact hdigits (List.all_eq_true.mpr (isDigit_of_readDigits? hread))
  · cases hnatural : readNatural (String.ofList index) with
    | error fault =>
        refine iff_of_false (by simp) fun ⟨hlength, hread, _⟩ => ?_
        simp [readNatural_eq_ok_iff.mpr ⟨hlength, hread⟩] at hnatural
    | ok value =>
        obtain ⟨hlength, hread⟩ := readNatural_eq_ok_iff.mp hnatural
        cases value with
        | zero => simp [hread, eq_comm]
        | succ value =>
            simp only [hlength, hread, Except.ok.injEq, Option.some.injEq, true_and]
            exact ⟨fun h => ⟨h, h ▸ Nat.succ_pos value⟩, And.left⟩

theorem readIndex_eq_integer_iff :
    (∃ fault, readIndex text index = .error (.integer fault)) ↔ IsUnreadable index := by
  unfold readIndex
  split
  · rename_i hform
    refine iff_of_false (by simp) fun h => ?_
    exact hform.elim h.ne_nil fun hdigits => hdigits (List.all_eq_true.mpr h.digits)
  · rename_i hform
    rw [not_or, not_not, List.all_eq_true] at hform
    have hunreadable : IsUnreadable index ↔
        ∃ fault, readNatural (String.ofList index) = .error fault :=
      ⟨fun h => readNatural_eq_error_iff.mpr h.unreadable,
        fun h => ⟨hform.1, hform.2, readNatural_eq_error_iff.mp h⟩⟩
    rw [hunreadable]
    cases readNatural (String.ofList index) with
    | error fault => simp
    | ok value => cases value <;> simp

/-! ## Elements -/

/-- The text is the name of an element. -/
def IsName (text : List Char) : Prop := text ≠ [] ∧ ∀ c ∈ text, isNameChar c = true

/-- The text is a name with a text in brackets after it. -/
structure IsBracketed (text name index ending : List Char) : Prop where
  spelled : text = name ++ '[' :: (index ++ ']' :: ending)
  name : IsName name
  closed : ']' ∉ index
  ending : ending = [] ∨ ending = ['\n']

/-- The text is spelled as an element with an index. -/
inductive SpellsElement : List Char → String → Nat → Prop
  | plain {name : List Char} (hname : IsName name) : SpellsElement name (String.ofList name) 1
  | indexed {text name index ending : List Char} {n : Nat}
      (htext : IsBracketed text name index ending) (hlength : index.length ≤ digitLimit)
      (hindex : readDigits? index = some n) (hpositive : 0 < n) :
      SpellsElement text (String.ofList name) n

theorem readElement_of_isName (hname : IsName text) :
    readElement text = .ok (.element (String.ofList text) 1) := by
  rw [readElement, List.takeWhile_eq_self_iff.mpr hname.2, List.dropWhile_eq_nil_iff.mpr hname.2,
    if_neg hname.1]

theorem readElement_of_isBracketed (h : IsBracketed text name index ending) :
    readElement text = (readIndex text index).map (.element (String.ofList name)) := by
  have hopen : isNameChar '[' = false := rfl
  have hclose : decide (']' ≠ ']') = false := rfl
  have hindex : ∀ c ∈ index, decide (c ≠ ']') = true := fun c hc =>
    decide_eq_true fun heq => h.closed (heq ▸ hc)
  have hname : text.takeWhile isNameChar = name := by
    rw [h.spelled, takeWhile_append_cons h.name.2 hopen]
  have hrest : text.dropWhile isNameChar = '[' :: (index ++ ']' :: ending) := by
    rw [h.spelled, dropWhile_append_cons h.name.2 hopen]
  have htail : (index ++ ']' :: ending).dropWhile (fun c => decide (c ≠ ']')) = ']' :: ending :=
    dropWhile_append_cons hindex hclose
  have htext : (index ++ ']' :: ending).takeWhile (fun c => decide (c ≠ ']')) = index :=
    takeWhile_append_cons hindex hclose
  have hending : ']' :: ending = [']'] ∨ ']' :: ending = [']', '\n'] :=
    h.ending.imp (congrArg _) (congrArg _)
  rw [readElement, hname, hrest, if_neg h.name.1]
  simp only [htail, htext, if_pos hending]
  cases readIndex text index <;> rfl

/-- A text that is spelled in neither way is refused for its form. -/
theorem readElement_cases (text : List Char) :
    IsName text ∨ (∃ name index ending, IsBracketed text name index ending) ∨
      ∃ fault, readElement text = .error (.form fault) := by
  have happend := List.takeWhile_append_dropWhile (p := isNameChar) (l := text)
  have hchars : ∀ c ∈ text.takeWhile isNameChar, isNameChar c = true := fun c hc =>
    List.mem_takeWhile_imp hc
  unfold readElement
  dsimp only
  split
  · exact .inr (.inr ⟨_, rfl⟩)
  · rename_i hname
    split
    · rename_i hrest
      rw [hrest, List.append_nil] at happend
      exact .inl (happend ▸ ⟨hname, hchars⟩)
    · rename_i rest hrest
      split
      · rename_i htail
        have hsplit := List.takeWhile_append_dropWhile (p := fun c => decide (c ≠ ']')) (l := rest)
        have hclosed : ']' ∉ rest.takeWhile fun c => decide (c ≠ ']') := fun hc => by
          simpa using List.mem_takeWhile_imp hc
        obtain ⟨ending, hending, hends⟩ : ∃ ending,
            rest.dropWhile (fun c => decide (c ≠ ']')) = ']' :: ending ∧
              (ending = [] ∨ ending = ['\n']) :=
          htail.elim (fun h => ⟨[], h, .inl rfl⟩) fun h => ⟨['\n'], h, .inr rfl⟩
        rw [hending] at hsplit
        rw [hrest, ← hsplit] at happend
        exact .inr (.inl ⟨_, _, ending, happend.symm, ⟨hname, hchars⟩, hclosed, hends⟩)
      · exact .inr (.inr ⟨_, rfl⟩)
    · exact .inr (.inr ⟨_, rfl⟩)

theorem readElement_eq_ok_iff {segment : Segment} :
    readElement text = .ok segment ↔
      ∃ name n, SpellsElement text name n ∧ segment = .element name n := by
  constructor
  · intro h
    rcases readElement_cases text with hname | ⟨name, index, ending, htext⟩ | ⟨fault, hform⟩
    · rw [readElement_of_isName hname] at h
      exact ⟨_, 1, .plain hname, (Except.ok.inj h).symm⟩
    · rw [readElement_of_isBracketed htext] at h
      obtain ⟨n, hindex, rfl⟩ := map_eq_ok_iff.mp h
      obtain ⟨hlength, hread, hpositive⟩ := readIndex_eq_ok_iff.mp hindex
      exact ⟨_, n, .indexed htext hlength hread hpositive, rfl⟩
    · rw [hform] at h
      cases h
  · rintro ⟨name, n, hspells, rfl⟩
    cases hspells with
    | plain hname => exact readElement_of_isName hname
    | indexed htext hlength hread hpositive =>
        rw [readElement_of_isBracketed htext, readIndex_eq_ok_iff.mpr ⟨hlength, hread, hpositive⟩]
        rfl

/-- The text is an element with an index whose digits make no number. -/
def IsUnreadableElement (text : List Char) : Prop :=
  ∃ name index ending, IsBracketed text name index ending ∧ IsUnreadable index

theorem readElement_eq_integer_iff :
    (∃ fault, readElement text = .error (.integer fault)) ↔ IsUnreadableElement text := by
  have hmap {name index : List Char} {fault : Fault} :
      (readIndex text index).map (Segment.element (String.ofList name)) = .error fault ↔
        readIndex text index = .error fault := by
    cases readIndex text index <;> simp [Except.map]
  constructor
  · rintro ⟨fault, h⟩
    rcases readElement_cases text with hname | ⟨name, index, ending, htext⟩ | ⟨form, hform⟩
    · rw [readElement_of_isName hname] at h
      cases h
    · rw [readElement_of_isBracketed htext, hmap] at h
      exact ⟨name, index, ending, htext, readIndex_eq_integer_iff.mp ⟨fault, h⟩⟩
    · rw [hform] at h
      cases h
  · rintro ⟨name, index, ending, htext, hindex⟩
    obtain ⟨fault, hfault⟩ := readIndex_eq_integer_iff.mpr hindex
    exact ⟨fault, by rw [readElement_of_isBracketed htext, hmap, hfault]⟩

/-! ## Segments -/

/-- What is read as a segment without an at sign before it is read as an element. -/
theorem readSegment_eq_readElement (isLast : Bool) (h : ∀ rest, text ≠ '@' :: rest) :
    readSegment isLast text = readElement text := by
  unfold readSegment
  split
  · rename_i rest
    exact absurd rfl (h rest)
  · rfl

theorem IsName.ne_attr (h : IsName text) (rest after : List Char) : text ++ after ≠ '@' :: rest := by
  obtain ⟨c, others, rfl⟩ := List.exists_cons_of_ne_nil h.1
  rintro heq
  obtain rfl := (List.cons.inj heq).1
  exact absurd (h.2 '@' List.mem_cons_self) (by decide)

theorem SpellsElement.ne_attr {name : String} {n : Nat} (h : SpellsElement text name n)
    (rest : List Char) : text ≠ '@' :: rest := by
  cases h with
  | plain hname => simpa using hname.ne_attr rest []
  | indexed htext => exact htext.spelled ▸ htext.name.ne_attr rest _

theorem readSegment_eq_ok_iff {isLast : Bool} {segment : Segment} :
    readSegment isLast text = .ok segment ↔
      (∃ name n, SpellsElement text name n ∧ segment = .element name n) ∨
        isLast = true ∧ ∃ name, text = '@' :: name ∧ segment = .attr (String.ofList name) := by
  by_cases hattr : ∃ name, text = '@' :: name
  · obtain ⟨name, rfl⟩ := hattr
    have hnot : ¬ ∃ other n, SpellsElement ('@' :: name) other n ∧ segment = .element other n :=
      fun ⟨_, _, hspells, _⟩ => hspells.ne_attr name rfl
    rw [readSegment, or_iff_right hnot]
    cases isLast <;> simp [eq_comm]
  · rw [not_exists] at hattr
    rw [readSegment_eq_readElement isLast hattr, readElement_eq_ok_iff]
    simp [hattr]

theorem readSegment_eq_integer_iff (isLast : Bool) :
    (∃ fault, readSegment isLast text = .error (.integer fault)) ↔ IsUnreadableElement text := by
  by_cases hattr : ∃ name, text = '@' :: name
  · obtain ⟨name, rfl⟩ := hattr
    refine iff_of_false ?_ fun ⟨_, _, _, htext, _⟩ => ?_
    · rw [readSegment]
      cases isLast <;> simp
    · exact htext.name.ne_attr name _ htext.spelled.symm
  · rw [not_exists] at hattr
    rw [readSegment_eq_readElement isLast hattr, readElement_eq_integer_iff]

/-! ## Paths -/

/-- The path is made of some texts, each with a slash before it. -/
structure IsPartedInto (path : String) (texts : List (List Char)) : Prop where
  spelled : path.toList = '/' :: ['/'].intercalate texts
  ne_nil : texts ≠ []
  parts : ∀ text ∈ texts, text ≠ [] ∧ '/' ∉ text
  /-- No placeholder is left. -/
  filled : contains placeholder path.toList = false

theorem read_eq_readSegments (h : IsPartedInto path texts) : read path = readSegments texts := by
  have hsplit : splitAt '/' (['/'].intercalate texts) = texts :=
    splitAt_intercalate h.ne_nil fun text htext => (h.parts text htext).2
  have hsome : texts.any List.isEmpty = false := by
    rw [List.any_eq_false]
    intro text htext hempty
    exact (h.parts text htext).1 (List.isEmpty_iff.mp hempty)
  have hfilled := h.filled
  unfold read
  rw [h.spelled] at hfilled ⊢
  simp only [hfilled, hsplit, hsome, Bool.false_eq_true, if_false]

/-- A path that has no parts is refused for its form. -/
theorem isPartedInto_or_form (path : String) :
    (∃ texts, IsPartedInto path texts) ∨ ∃ fault, read path = .error (.form fault) := by
  unfold read
  split
  · rename_i rest hpath
    split
    · exact .inr ⟨_, rfl⟩
    · rename_i hfilled
      dsimp only
      split
      · exact .inr ⟨_, rfl⟩
      · rename_i hsome
        rw [Bool.not_eq_true] at hfilled hsome
        refine .inl ⟨splitAt '/' rest, ⟨?_, splitAt_ne_nil _ _, fun text htext => ?_, hfilled⟩⟩
        · rw [intercalate_splitAt, hpath]
        · refine ⟨?_, not_mem_of_mem_splitAt htext⟩
          rintro rfl
          exact absurd rfl (List.any_eq_false.mp hsome [] htext)
  · exact .inr ⟨_, rfl⟩

end GeoMetadata.Path
