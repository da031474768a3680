import GeoMetadata.Proofs.Path.Acceptance
import GeoMetadata.Proofs.Text.Search

/-!
# Reading and rendering

A segment is spelled as its name and its index, and a path as its segments with a slash before
each.  Reading goes through all of the path, so that it can be told which paths are read as some
segments: those that spell them, if there are paths that do (`read_eq_ok_iff`).  There are if the
segments are *renderable* (`IsRenderable`), and then every rendering of theirs is read as them again
(`renderings_are_read_iff`).

What a path spells is told with one exception.  After the bracket of an index a line break may
stand, and it is passed over as if it were not there.  A path without such a break is made of
nothing but the spellings of its segments, and a path with one is not
(`reading_passes_over_breaks_only`).
-/

namespace GeoMetadata.Path

open Number Text

variable {segments : List Segment} {texts : List (List Char)} {path : String}

/-! ## Lists side by side -/

theorem forall₂_imp_of_mem {α β : Type} {R S : α → β → Prop} {as : List α} {bs : List β}
    (h : List.Forall₂ R as bs) (himp : ∀ a ∈ as, ∀ b ∈ bs, R a b → S a b) : List.Forall₂ S as bs := by
  induction h with
  | nil => exact .nil
  | @cons a b as bs hfirst _ ih =>
      refine .cons (himp a List.mem_cons_self b List.mem_cons_self hfirst) (ih ?_)
      exact fun a ha b hb => himp a (List.mem_cons_of_mem _ ha) b (List.mem_cons_of_mem _ hb)

/-! ## Spellings -/

/-- What stands after a name for an index: nothing for the first, or digits in brackets, after
which there is one of some endings. -/
inductive SpellsIndex (endings : List (List Char)) : Nat → List Char → Prop
  | leftOut : SpellsIndex endings 1 []
  | written {index : Nat} {digits ending : List Char}
      (hread : readNatural (String.ofList digits) = .ok index) (hending : ending ∈ endings) :
      SpellsIndex endings index ('[' :: (digits ++ ']' :: ending))

/-- The text is how a segment is spelled. -/
inductive SpellsSegment (endings : List (List Char)) : Segment → List Char → Prop
  | element (name : String) {index : Nat} {text : List Char}
      (hindex : SpellsIndex endings index text) :
      SpellsSegment endings (.element name index) (name.toList ++ text)
  | attr (name : String) : SpellsSegment endings (.attr name) ('@' :: name.toList)

/-- The path of some texts, with a slash before each. -/
def slashed (texts : List (List Char)) : String := String.ofList (texts.flatMap ('/' :: ·))

/-- The path is made of how its segments are spelled. -/
def IsSpelled (endings : List (List Char)) (path : String) (segments : List Segment) : Prop :=
  ∃ texts, List.Forall₂ (SpellsSegment endings) segments texts ∧ path = slashed texts

/-- Nothing stands after the bracket of an index. -/
abbrev exactly : List (List Char) := [[]]

/-- A line break may stand after the bracket of an index. -/
abbrev upToBreaks : List (List Char) := [[], ['\n']]

/-- The segments can be rendered as a path. -/
structure IsRenderable (segments : List Segment) : Prop extends IsWellFormed segments where
  index : ∀ name index, .element name index ∈ segments → index < unwritableMagnitude
  attrName : ∀ name, .attr name ∈ segments → '/' ∉ name.toList
  /-- The placeholder of templates is in no name. -/
  filled : ∀ segment ∈ segments, ¬ placeholder <:+: segment.name.toList

/-! ## Single segments -/

theorem isName_toList_iff {name : String} :
    IsName name.toList ↔ name ≠ "" ∧ ∀ c ∈ name.toList, c ∉ ['[', ']', '@', '/'] := by
  have hchar (c : Char) : isNameChar c = true ↔ c ∉ ['[', ']', '@', '/'] := by
    simp [isNameChar, and_assoc]
  simp only [IsName, hchar, ne_eq, String.toList_eq_nil_iff]

theorem IsWellFormed.isName (h : IsWellFormed segments) {name : String} {index : Nat}
    (hmem : .element name index ∈ segments) : IsName name.toList ∧ 1 ≤ index := by
  obtain ⟨hsome, hchars, hpositive⟩ := h.element name index hmem
  exact ⟨isName_toList_iff.mpr ⟨hsome, hchars⟩, hpositive⟩

/-- The digits that are read as an index are digits. -/
theorem isDigit_of_readNatural {digits : List Char} {index : Nat}
    (hread : readNatural (String.ofList digits) = .ok index) : ∀ c ∈ digits, isDigit c = true :=
  isDigit_of_readDigits? (readNatural_eq_ok_iff.mp hread).2

theorem spellsElement_iff {text : List Char} {name : String} {index : Nat} :
    SpellsElement text name index ↔
      SpellsSegment upToBreaks (.element name index) text ∧ IsName name.toList ∧ 1 ≤ index := by
  constructor
  · intro h
    cases h with
    | plain hname =>
        have hindex : SpellsIndex upToBreaks 1 [] := .leftOut
        have hspelled := SpellsSegment.element (String.ofList text) hindex
        rw [String.toList_ofList, List.append_nil] at hspelled
        exact ⟨hspelled, by rwa [String.toList_ofList], Nat.le_refl 1⟩
    | indexed htext hlength hindex hpositive =>
        rename_i name digits ending
        have hread := readNatural_eq_ok_iff.mpr ⟨hlength, hindex⟩
        have hending : ending ∈ upToBreaks := by simpa using htext.ending
        have hspelled := SpellsSegment.element (String.ofList name) (.written hread hending)
        rw [String.toList_ofList, ← htext.spelled] at hspelled
        exact ⟨hspelled, by rw [String.toList_ofList]; exact htext.name, hpositive⟩
  · rintro ⟨hspelled, hname, hpositive⟩
    cases hspelled with
    | element _ hindex =>
        cases hindex with
        | leftOut =>
            rw [List.append_nil]
            simpa using SpellsElement.plain hname
        | @written _ digits ending hread hending =>
            have hclosed : ']' ∉ digits := fun hc =>
              absurd (isDigit_of_readNatural hread _ hc) (by decide)
            have htext : IsBracketed (name.toList ++ '[' :: (digits ++ ']' :: ending)) name.toList
                digits ending := ⟨rfl, hname, hclosed, by simpa using hending⟩
            obtain ⟨hlength, hvalue⟩ := readNatural_eq_ok_iff.mp hread
            simpa using SpellsElement.indexed htext hlength hvalue hpositive

theorem spellsSegment_of_readSegment {isLast : Bool} {segment : Segment} {text : List Char}
    (h : readSegment isLast text = .ok segment) : SpellsSegment upToBreaks segment text := by
  rcases readSegment_eq_ok_iff.mp h with ⟨name, index, hspelled, rfl⟩ | ⟨-, name, rfl, rfl⟩
  · exact (spellsElement_iff.mp hspelled).1
  · have hspelled : SpellsSegment upToBreaks (.attr (String.ofList name)) _ := .attr _
    rwa [String.toList_ofList] at hspelled

/-- A segment is read from its spelling, an attribute only where no other segment follows. -/
theorem readSegment_of_spellsSegment {isLast : Bool} {segment : Segment} {text : List Char}
    (hspelled : SpellsSegment upToBreaks segment text)
    (helement : ∀ name index, .element name index = segment → IsName name.toList ∧ 1 ≤ index)
    (hlast : isLast = true ∨ segment.isAttribute = false) :
    readSegment isLast text = .ok segment := by
  rw [readSegment_eq_ok_iff]
  cases segment with
  | element name index =>
      exact .inl ⟨name, index, spellsElement_iff.mpr ⟨hspelled, helement name index rfl⟩, rfl⟩
  | attr name =>
      cases hspelled
      refine .inr ⟨hlast.resolve_right (by simp [Segment.isAttribute]), name.toList, rfl, ?_⟩
      rw [String.ofList_toList]

/-- An index that is spelled has few enough digits to be written. -/
theorem SpellsIndex.lt_unwritableMagnitude {endings : List (List Char)} {index : Nat}
    {text : List Char} (h : SpellsIndex endings index text) : index < unwritableMagnitude := by
  cases h with
  | leftOut => exact one_lt_unwritableMagnitude
  | written hread _ => exact lt_unwritableMagnitude_of_readNatural hread

section Parts

variable {segment : Segment} {text : List Char}

theorem mem_of_spellsIndex {index : Nat} {c : Char} (h : SpellsIndex upToBreaks index text)
    (hc : c ∈ text) : isDigit c = true ∨ c ∈ ['[', ']', '\n'] := by
  cases h with
  | leftOut => simp at hc
  | @written _ digits ending hread hending =>
      have hbreak : c ∈ ending → c = '\n' := by
        intro hc
        rcases List.mem_pair.mp hending with rfl | rfl
        · simp at hc
        · exact List.mem_singleton.mp hc
      rcases List.mem_cons.mp hc with rfl | hc
      · simp
      · rcases List.mem_append.mp hc with hc | hc
        · exact .inl (isDigit_of_readNatural hread c hc)
        · rcases List.mem_cons.mp hc with rfl | hc
          · simp
          · simp [hbreak hc]

theorem SpellsIndex.eq_nil_or_cons {endings : List (List Char)} {index : Nat}
    (h : SpellsIndex endings index text) : text = [] ∨ ∃ rest, text = '[' :: rest := by
  cases h with
  | leftOut => exact .inl rfl
  | written _ _ => exact .inr ⟨_, rfl⟩

/-- A placeholder in the spelling of a segment stands in its name. -/
theorem SpellsSegment.contains_placeholder (h : SpellsSegment upToBreaks segment text) :
    contains placeholder text = contains placeholder segment.name.toList := by
  have hat : '@' ∉ placeholder := by decide
  have hopen : '[' ∉ placeholder := by decide
  cases h with
  | attr name => exact contains_append_cons hat [] name.toList
  | @element name index text hindex =>
      rcases hindex.eq_nil_or_cons with rfl | ⟨rest, rfl⟩
      · rw [List.append_nil, Segment.name]
      · have hrest : '%' ∉ rest := by
          intro hc
          rcases mem_of_spellsIndex hindex (List.mem_cons_of_mem _ hc) with hc | hc
          · exact absurd hc (by decide)
          · exact absurd hc (by decide)
        rw [contains_append_cons hopen, contains_eq_false (by decide) hrest,
          Bool.or_false, Segment.name]

/-- The spelling of a segment of a renderable path stands between slashes. -/
theorem SpellsSegment.isPart (h : SpellsSegment upToBreaks segment text)
    (helement : ∀ name index, .element name index = segment → IsName name.toList)
    (hattr : ∀ name, .attr name = segment → '/' ∉ name.toList) : text ≠ [] ∧ '/' ∉ text := by
  cases h with
  | attr name =>
      exact ⟨List.cons_ne_nil _ _, List.not_mem_cons_of_ne_of_not_mem (by decide) (hattr name rfl)⟩
  | @element name index text hindex =>
      have hname := helement name index rfl
      refine ⟨by simp [hname.1], fun hc => ?_⟩
      rcases List.mem_append.mp hc with hc | hc
      · exact absurd (hname.2 _ hc) (by decide)
      · rcases mem_of_spellsIndex hindex hc with hc | hc
        · exact absurd hc (by decide)
        · exact absurd hc (by decide)

end Parts

/-! ## Segments in order -/

theorem forall₂_of_readSegments (h : readSegments texts = .ok segments) :
    List.Forall₂ (SpellsSegment upToBreaks) segments texts := by
  induction texts generalizing segments with
  | nil =>
      obtain rfl := Except.ok.inj h
      exact .nil
  | cons text rest ih =>
      obtain ⟨first, others, hfirst, hothers, rfl⟩ := readSegments_cons_eq_ok_iff.mp h
      exact .cons (spellsSegment_of_readSegment hfirst) (ih hothers)

theorem readSegments_of_forall₂ (hspelled : List.Forall₂ (SpellsSegment upToBreaks) segments texts)
    (helement : ∀ name index, .element name index ∈ segments → IsName name.toList ∧ 1 ≤ index)
    (hattr : ∀ segment ∈ segments.dropLast, segment.isAttribute = false) :
    readSegments texts = .ok segments := by
  induction hspelled with
  | nil => rfl
  | @cons first text segments texts hfirst hrest ih =>
      have hlast : texts.isEmpty = true ∨ first.isAttribute = false := by
        cases hrest with
        | nil => exact .inl rfl
        | cons _ _ => exact .inr (hattr first (by simp))
      have hread := readSegment_of_spellsSegment hfirst
        (fun name index heq => helement name index (heq ▸ List.mem_cons_self)) hlast
      refine readSegments_cons_eq_ok_iff.mpr ⟨first, segments, hread, ih ?_ ?_, rfl⟩
      · exact fun name index hmem => helement name index (List.mem_cons_of_mem _ hmem)
      · intro segment hmem
        cases segments with
        | nil => simp at hmem
        | cons next others => exact hattr segment (List.mem_cons_of_mem _ hmem)

/-! ## Paths -/

theorem toList_slashed (hsome : texts ≠ []) :
    (slashed texts).toList = '/' :: ['/'].intercalate texts := by
  rw [slashed, String.toList_ofList]
  induction texts with
  | nil => exact absurd rfl hsome
  | cons text rest ih =>
      cases rest with
      | nil => simp
      | cons next others =>
          rw [List.flatMap_cons, ih (List.cons_ne_nil _ _), List.intercalate_cons_cons]
          simp

theorem isPartedInto_iff : IsPartedInto path texts ↔ path = slashed texts ∧ texts ≠ [] ∧
    ∀ text ∈ texts, text ≠ [] ∧ '/' ∉ text ∧ contains placeholder text = false := by
  have hslash : '/' ∉ placeholder := by decide
  have hfilled (hsome : texts ≠ []) : contains placeholder (slashed texts).toList =
      texts.any (contains placeholder) := by
    rw [toList_slashed hsome, ← contains_intercalate (by decide) (List.cons_ne_nil '/' [])
      (List.forall_mem_singleton.mpr hslash) texts]
    exact contains_append_cons hslash [] _
  constructor
  · intro h
    have hpath : path = slashed texts :=
      String.toList_inj.mp (h.spelled.trans (toList_slashed h.ne_nil).symm)
    have hnone := h.filled
    rw [hpath, hfilled h.ne_nil, List.any_eq_false] at hnone
    refine ⟨hpath, h.ne_nil, fun text htext => ?_⟩
    exact ⟨(h.parts text htext).1, (h.parts text htext).2, by simpa using hnone text htext⟩
  · rintro ⟨rfl, hsome, hparts⟩
    refine ⟨toList_slashed hsome, hsome, fun text htext => ?_, ?_⟩
    · exact ⟨(hparts text htext).1, (hparts text htext).2.1⟩
    · rw [hfilled hsome, List.any_eq_false]
      intro text htext
      rw [(hparts text htext).2.2]
      exact Bool.false_ne_true

/-- The slashes of a path part the texts that it is made of. -/
theorem IsPartedInto.splitAt_eq (h : IsPartedInto path texts) :
    splitAt '/' path.toList = [] :: texts := by
  rw [h.spelled, ← List.nil_append ('/' :: _), splitAt_append_cons List.not_mem_nil,
    splitAt_intercalate h.ne_nil fun text htext => (h.parts text htext).2]

/-- The spellings of renderable segments are the parts of the path that is made of them. -/
theorem isPartedInto_slashed (hrender : IsRenderable segments)
    (hspelled : List.Forall₂ (SpellsSegment upToBreaks) segments texts) :
    IsPartedInto (slashed texts) texts := by
  refine isPartedInto_iff.mpr ⟨rfl, ?_, fun text htext => ?_⟩
  · rintro rfl
    cases hspelled
    exact hrender.ne_nil rfl
  · obtain ⟨segment, hsegment, hspelled⟩ := exists_mem_of_forall₂ hspelled.flip htext
    have hpart := hspelled.isPart (fun name index heq => (hrender.isName (heq ▸ hsegment)).1)
      fun name heq => hrender.attrName name (heq ▸ hsegment)
    refine ⟨hpart.1, hpart.2, ?_⟩
    rw [hspelled.contains_placeholder, contains_eq_false_iff]
    exact hrender.filled segment hsegment

/-- A path is read as some segments exactly if they are renderable and it spells them, up to line
breaks after the brackets of indices. -/
theorem read_eq_ok_iff : read path = .ok segments ↔
    IsRenderable segments ∧ IsSpelled upToBreaks path segments := by
  constructor
  · intro h
    have hformed := isWellFormed_of_read h
    rcases isPartedInto_or_form path with ⟨texts, hparts⟩ | ⟨fault, hform⟩
    · rw [read_eq_readSegments hparts] at h
      have hspelled := forall₂_of_readSegments h
      obtain ⟨hpath, -, hfree⟩ := isPartedInto_iff.mp hparts
      refine ⟨⟨hformed, fun name index hmem => ?_, fun name hmem => ?_, fun segment hmem => ?_⟩,
        texts, hspelled, hpath⟩
      · obtain ⟨text, -, hspelled⟩ := exists_mem_of_forall₂ hspelled hmem
        cases hspelled with
        | element _ hindex => exact hindex.lt_unwritableMagnitude
      · obtain ⟨text, htext, hspelled⟩ := exists_mem_of_forall₂ hspelled hmem
        cases hspelled
        exact List.not_mem_of_not_mem_cons (hfree _ htext).2.1
      · obtain ⟨text, htext, hspelled⟩ := exists_mem_of_forall₂ hspelled hmem
        rw [← contains_eq_false_iff, ← hspelled.contains_placeholder]
        exact (hfree text htext).2.2
    · rw [hform] at h
      cases h
  · rintro ⟨hrender, texts, hspelled, rfl⟩
    rw [read_eq_readSegments (isPartedInto_slashed hrender hspelled)]
    exact readSegments_of_forall₂ hspelled (fun name index hmem => hrender.isName hmem) hrender.attr

/-! ## Renderings -/

/-- The text is a rendering of a segment: its index stands in brackets, or is left out if it is the
first. -/
inductive IsRendering : Segment → List Char → Prop
  | short (name : String) : IsRendering (.element name 1) name.toList
  | full (name : String) (index : Nat) :
      IsRendering (.element name index) (name.toList ++ '[' :: (Nat.toDigits 10 index ++ [']']))
  | attr (name : String) : IsRendering (.attr name) ('@' :: name.toList)

theorem IsRendering.spellsSegment {segment : Segment} {text : List Char}
    (h : IsRendering segment text)
    (hindex : ∀ name index, .element name index = segment → index < unwritableMagnitude) :
    SpellsSegment upToBreaks segment text := by
  cases h with
  | short name => simpa using SpellsSegment.element name (.leftOut : SpellsIndex upToBreaks 1 [])
  | full name index =>
      have hread : readNatural (String.ofList (Nat.toDigits 10 index)) = .ok index :=
        readNatural_eq_ok_iff.mpr ⟨length_toDigits_le_digitLimit.mpr (hindex name index rfl),
          readDigits?_toDigits index⟩
      exact .element name (.written hread (by simp))
  | attr name => exact .attr name

theorem exists_isRendering (segment : Segment) : ∃ text, IsRendering segment text := by
  cases segment with
  | element name index => exact ⟨_, .full name index⟩
  | attr name => exact ⟨_, .attr name⟩

theorem forall₂_spellsSegment (hrender : IsRenderable segments)
    (hall : List.Forall₂ IsRendering segments texts) :
    List.Forall₂ (SpellsSegment upToBreaks) segments texts :=
  forall₂_imp_of_mem hall fun _ hsegment _ _ hrendered =>
    hrendered.spellsSegment fun name index heq => hrender.index name index (heq ▸ hsegment)

/-- A rendering of renderable segments is read as them. -/
theorem read_slashed (hrender : IsRenderable segments)
    (hall : List.Forall₂ IsRendering segments texts) : read (slashed texts) = .ok segments :=
  read_eq_ok_iff.mpr ⟨hrender, texts, forall₂_spellsSegment hrender hall, rfl⟩

/-- Segments are renderable exactly if all their renderings are read as them. -/
theorem renderings_are_read_iff (segments : List Segment) :
    (∀ texts, List.Forall₂ IsRendering segments texts → read (slashed texts) = .ok segments) ↔
      IsRenderable segments := by
  constructor
  · intro h
    choose render hrender using exists_isRendering
    have hall : List.Forall₂ IsRendering segments (segments.map render) :=
      List.forall₂_map_right_iff.mpr (List.forall₂_same.mpr fun segment _ => hrender segment)
    exact (read_eq_ok_iff.mp (h _ hall)).1
  · exact fun hrender texts hall => read_slashed hrender hall

/-! ## Line breaks after indices -/

/-- The text of an element ends in a bracket and a line break. -/
def EndsInBreak (text : List Char) : Prop := text.head? ≠ some '@' ∧ [']', '\n'] <:+ text

/-- An element of the path ends in a bracket and a line break. -/
def HasBreak (path : String) : Prop := ∃ text ∈ splitAt '/' path.toList, EndsInBreak text

instance (text : List Char) : Decidable (EndsInBreak text) := inferInstanceAs (Decidable (_ ∧ _))

instance (path : String) : Decidable (HasBreak path) :=
  inferInstanceAs (Decidable (∃ text ∈ splitAt '/' path.toList, EndsInBreak text))

theorem SpellsSegment.mono {endings wider : List (List Char)} {segment : Segment} {text : List Char}
    (h : SpellsSegment endings segment text) (hwider : endings ⊆ wider) :
    SpellsSegment wider segment text := by
  cases h with
  | attr name => exact .attr name
  | element name hindex =>
      cases hindex with
      | leftOut => exact .element name .leftOut
      | written hread hending => exact .element name (.written hread (hwider hending))

/-- Of the spellings that are read, those are exact that do not end in a break. -/
theorem spellsSegment_exactly_iff {segment : Segment} {text : List Char}
    (h : SpellsSegment upToBreaks segment text)
    (hname : ∀ name index, .element name index = segment → IsName name.toList) :
    SpellsSegment exactly segment text ↔ ¬ EndsInBreak text := by
  constructor
  · rintro hexact ⟨hhead, before, hend⟩
    cases hexact with
    | attr name => exact hhead rfl
    | element name hindex =>
        cases hindex with
        | leftOut =>
            have hclose : ']' ∈ name.toList := by
              rw [List.append_nil] at hend
              simp [← hend]
            exact absurd ((hname name _ rfl).2 _ hclose) (by decide)
        | @written _ digits ending _ hending =>
            obtain rfl := List.mem_singleton.mp hending
            have hlast := congrArg List.getLast? hend
            rw [← List.cons_append, ← List.append_assoc, List.getLast?_concat] at hlast
            simp at hlast
  · intro hbreak
    cases h with
    | attr name => exact .attr name
    | element name hindex =>
        cases hindex with
        | leftOut => exact .element name .leftOut
        | @written _ digits ending hread hending =>
            rcases List.mem_pair.mp hending with rfl | rfl
            · exact .element name (.written hread (by simp))
            · refine absurd ⟨?_, name.toList ++ '[' :: digits, by simp⟩ hbreak
              obtain ⟨c, rest, hcons⟩ := List.exists_cons_of_ne_nil (hname name _ rfl).1
              have hc := (hname name _ rfl).2 c (hcons ▸ List.mem_cons_self)
              rw [hcons, List.cons_append, List.head?_cons, Ne, Option.some.injEq]
              rintro rfl
              exact absurd hc (by decide)

theorem hasBreak_iff (h : IsPartedInto path texts) :
    HasBreak path ↔ ∃ text ∈ texts, EndsInBreak text := by
  rw [HasBreak, h.splitAt_eq]
  simp [EndsInBreak]

/-- A path that is read is made of the spellings of its segments unless it has a break. -/
theorem isSpelled_exactly_iff (h : read path = .ok segments) :
    IsSpelled exactly path segments ↔ ¬ HasBreak path := by
  obtain ⟨hrender, texts, hspelled, rfl⟩ := read_eq_ok_iff.mp h
  have hname : ∀ segment ∈ segments, ∀ name index, .element name index = segment →
      IsName name.toList := fun segment hsegment name index heq =>
    (hrender.isName (heq ▸ hsegment)).1
  constructor
  · rintro ⟨others, hexact, hpath⟩ hbreak
    have hothers : List.Forall₂ (SpellsSegment upToBreaks) segments others :=
      hexact.imp fun _ _ h => h.mono (by simp)
    rw [hpath, hasBreak_iff (isPartedInto_slashed hrender hothers)] at hbreak
    obtain ⟨text, htext, hends⟩ := hbreak
    obtain ⟨segment, hsegment, hexact⟩ := exists_mem_of_forall₂ hexact.flip htext
    exact (spellsSegment_exactly_iff (hexact.mono (by simp)) (hname segment hsegment)).mp hexact hends
  · intro hbreak
    rw [hasBreak_iff (isPartedInto_slashed hrender hspelled)] at hbreak
    refine ⟨texts, forall₂_imp_of_mem hspelled fun segment hsegment text htext hspelled => ?_, rfl⟩
    exact (spellsSegment_exactly_iff hspelled (hname segment hsegment)).mpr fun hends =>
      hbreak ⟨text, htext, hends⟩

/-! ## Paths with the same segments -/

/-- The texts are the same but for how an index is spelled at their end. -/
def AgreeButForIndex (endings : List (List Char)) (text other : List Char) : Prop :=
  text = other ∨ ∃ before index first second, SpellsIndex endings index first ∧
    SpellsIndex endings index second ∧ text = before ++ first ∧ other = before ++ second

/-- The paths differ at most in how the indices of their elements are spelled. -/
def DifferInIndices (endings : List (List Char)) (path other : String) : Prop :=
  ∃ texts others, path = slashed texts ∧ other = slashed others ∧
    List.Forall₂ (AgreeButForIndex endings) texts others

theorem SpellsSegment.agreeButForIndex {endings : List (List Char)} {segment : Segment}
    {text other : List Char} (h : SpellsSegment endings segment text)
    (hother : SpellsSegment endings segment other) : AgreeButForIndex endings text other := by
  cases h with
  | attr name =>
      cases hother
      exact .inl rfl
  | @element name index first hfirst =>
      cases hother with
      | @element _ _ second hsecond =>
          exact .inr ⟨name.toList, index, first, second, hfirst, hsecond, rfl, rfl⟩

theorem IsSpelled.differInIndices {endings : List (List Char)} {other : String}
    (h : IsSpelled endings path segments) (hother : IsSpelled endings other segments) :
    DifferInIndices endings path other := by
  obtain ⟨texts, htexts, rfl⟩ := h
  obtain ⟨others, hothers, rfl⟩ := hother
  refine ⟨texts, others, rfl, rfl, ?_⟩
  induction htexts generalizing others with
  | nil =>
      cases hothers
      exact .nil
  | cons hfirst _ ih =>
      cases hothers with
      | cons hsecond hothers => exact .cons (hfirst.agreeButForIndex hsecond) (ih _ hothers)

/-- A path is read as some segments exactly if they are renderable and it spells them up to breaks.
It spells them exactly unless it has a break.  Paths with the same segments differ at most in how
their indices are spelled, up to breaks as well. -/
theorem reading_passes_over_breaks_only (path other : String) (segments : List Segment) :
    (read path = .ok segments ↔ IsRenderable segments ∧ IsSpelled upToBreaks path segments) ∧
    (read path = .ok segments → (IsSpelled exactly path segments ↔ ¬ HasBreak path)) ∧
    (read path = .ok segments → read other = .ok segments →
      DifferInIndices upToBreaks path other ∧
        (¬ HasBreak path → ¬ HasBreak other → DifferInIndices exactly path other)) := by
  refine ⟨read_eq_ok_iff, isSpelled_exactly_iff, fun hpath hother => ⟨?_, fun hbreak hnone => ?_⟩⟩
  · exact (read_eq_ok_iff.mp hpath).2.differInIndices (read_eq_ok_iff.mp hother).2
  · exact ((isSpelled_exactly_iff hpath).mpr hbreak).differInIndices
      ((isSpelled_exactly_iff hother).mpr hnone)

theorem break_after_index_is_passed_over :
    read "/a[1]\n" = .ok [.element "a" 1] ∧ ¬ IsSpelled exactly "/a[1]\n" [.element "a" 1] := by
  have hread : read "/a[1]\n" = .ok [.element "a" 1] := by decide
  refine ⟨hread, fun hspelled => ?_⟩
  exact (isSpelled_exactly_iff hread).mp hspelled (by decide)

end GeoMetadata.Path
