import GeoMetadata.Failure
import GeoMetadata.Proofs.Path.Spelling

/-!
# Which paths are read, and which are refused

A path that is read has segments of the right form: there is one at least, elements have names
without brackets, at signs and slashes and indices from 1 on, and only the last segment is an
attribute (`isWellFormed_of_readSegments`).  Every other path is refused for its form, and assembly
reports it, unless its first segment that cannot be read has an index whose digits make no number
(`HasUnreadableIndex`).  Such an index passes the test for digits, and it is only when it is turned
into a number that it fails.
-/

namespace GeoMetadata.Path

variable {path : String} {texts : List (List Char)} {segments : List Segment}

/-! ## Segments in order -/

theorem readSegments_cons_eq_ok_iff {text : List Char} :
    readSegments (text :: texts) = .ok segments ↔
      ∃ first others, readSegment texts.isEmpty text = .ok first ∧ readSegments texts = .ok others ∧
        segments = first :: others := by
  rw [readSegments]
  simp only [bind_eq_ok_iff, Except.ok.injEq, exists_and_left, @eq_comm _ segments]

/-- The segments can be those of a path. -/
structure IsWellFormed (segments : List Segment) : Prop where
  ne_nil : segments ≠ []
  element : ∀ name index, .element name index ∈ segments →
    name ≠ "" ∧ (∀ c ∈ name.toList, c ∉ ['[', ']', '@', '/']) ∧ 1 ≤ index
  /-- Only the last segment is an attribute. -/
  attr : ∀ segment ∈ segments.dropLast, segment.isAttribute = false

theorem SpellsElement.isWellFormed {text : List Char} {name : String} {n : Nat}
    (h : SpellsElement text name n) :
    name ≠ "" ∧ (∀ c ∈ name.toList, c ∉ ['[', ']', '@', '/']) ∧ 1 ≤ n := by
  have hname {name : List Char} (h : IsName name) : String.ofList name ≠ "" ∧
      ∀ c ∈ (String.ofList name).toList, c ∉ ['[', ']', '@', '/'] := by
    rw [String.toList_ofList]
    refine ⟨by simpa using h.1, fun c hc hmark => ?_⟩
    have hchar := h.2 c hc
    simp only [List.mem_cons, List.not_mem_nil, or_false] at hmark
    rcases hmark with rfl | rfl | rfl | rfl <;> exact absurd hchar (by decide)
  cases h with
  | plain hplain => exact ⟨(hname hplain).1, (hname hplain).2, Nat.le_refl 1⟩
  | indexed htext _ _ hpositive => exact ⟨(hname htext.name).1, (hname htext.name).2, hpositive⟩

theorem isWellFormed_of_readSegments (hsome : texts ≠ []) (h : readSegments texts = .ok segments) :
    IsWellFormed segments := by
  induction texts generalizing segments with
  | nil => exact absurd rfl hsome
  | cons text rest ih =>
      obtain ⟨first, others, hfirst, hothers, rfl⟩ := readSegments_cons_eq_ok_iff.mp h
      have helement (name : String) (index : Nat) (heq : .element name index = first) :
          name ≠ "" ∧ (∀ c ∈ name.toList, c ∉ ['[', ']', '@', '/']) ∧ 1 ≤ index := by
        subst heq
        rcases readSegment_eq_ok_iff.mp hfirst with ⟨_, _, hspells, heq⟩ | ⟨_, _, _, heq⟩
        · obtain ⟨rfl, rfl⟩ := Segment.element.inj heq
          exact hspells.isWellFormed
        · cases heq
      cases rest with
      | nil =>
          obtain rfl := Except.ok.inj hothers
          refine ⟨List.cons_ne_nil _ _, fun name index hmem => ?_, fun _ hmem => by simp at hmem⟩
          exact helement name index (List.mem_singleton.mp hmem)
      | cons next later =>
          -- More segments follow, so that the first one is an element.
          have hothers := ih (List.cons_ne_nil _ _) hothers
          refine ⟨List.cons_ne_nil _ _, fun name index hmem => ?_, fun segment hmem => ?_⟩
          · exact (List.mem_cons.mp hmem).elim (helement name index) (hothers.element name index)
          · rw [List.dropLast_cons_of_ne_nil hothers.ne_nil] at hmem
            rcases List.mem_cons.mp hmem with rfl | hmem
            · rcases readSegment_eq_ok_iff.mp hfirst with ⟨_, _, _, rfl⟩ | ⟨hlast, _⟩
              · rfl
              · cases hlast
            · exact hothers.attr segment hmem

/-- The first of the texts that cannot be read has an index whose digits make no number. -/
def StopsAtIndex (texts : List (List Char)) : Prop :=
  ∃ before text after, texts = before ++ text :: after ∧
    (∀ earlier ∈ before, ∃ name index, SpellsElement earlier name index) ∧ IsUnreadableElement text

theorem stopsAtIndex_cons {text : List Char} :
    StopsAtIndex (text :: texts) ↔ IsUnreadableElement text ∨
      (∃ name index, SpellsElement text name index) ∧ StopsAtIndex texts := by
  constructor
  · rintro ⟨before, found, after, htexts, hbefore, hfound⟩
    cases before with
    | nil =>
        obtain ⟨rfl, -⟩ := List.cons.inj htexts
        exact .inl hfound
    | cons first before =>
        obtain ⟨rfl, rfl⟩ := List.cons.inj htexts
        obtain ⟨hfirst, hbefore⟩ := List.forall_mem_cons.mp hbefore
        exact .inr ⟨hfirst, before, found, after, rfl, hbefore, hfound⟩
  · rintro (hfound | ⟨hfirst, before, found, after, rfl, hbefore, hfound⟩)
    · exact ⟨[], text, texts, rfl, by simp, hfound⟩
    · exact ⟨text :: before, found, after, rfl, List.forall_mem_cons.mpr ⟨hfirst, hbefore⟩, hfound⟩

theorem readSegments_eq_integer_iff :
    (∃ fault, readSegments texts = .error (.integer fault)) ↔ StopsAtIndex texts := by
  induction texts with
  | nil =>
      refine iff_of_false (by simp [readSegments]) ?_
      rintro ⟨before, text, after, htexts, -⟩
      simp at htexts
  | cons text rest ih =>
      rw [stopsAtIndex_cons, ← ih, ← readSegment_eq_integer_iff rest.isEmpty, readSegments]
      cases hfirst : readSegment rest.isEmpty text with
      | error fault =>
          have hnot : ¬ ∃ name index, SpellsElement text name index := by
            rintro ⟨name, index, hspells⟩
            rw [readSegment_eq_ok_iff.mpr (.inl ⟨name, index, hspells, rfl⟩)] at hfirst
            cases hfirst
          rw [or_iff_left fun h => hnot h.1]
          simp [bind, Except.bind]
      | ok first =>
          rw [or_iff_right (by simp)]
          cases hrest : readSegments rest with
          | ok others => simp [bind, Except.bind]
          | error fault =>
              have helement : ∃ name index, SpellsElement text name index := by
                cases rest with
                | nil => cases hrest
                | cons next later =>
                    rcases readSegment_eq_ok_iff.mp hfirst with ⟨name, index, hspells, -⟩ | ⟨hlast, -⟩
                    · exact ⟨name, index, hspells⟩
                    · cases hlast
              rw [and_iff_right helement]
              simp [bind, Except.bind]

/-! ## Paths -/

/-- The path is made of texts, the first of which that cannot be read has an index whose digits make
no number. -/
def HasUnreadableIndex (path : String) : Prop := ∃ texts, IsPartedInto path texts ∧ StopsAtIndex texts

theorem read_eq_integer_iff :
    (∃ fault, read path = .error (.integer fault)) ↔ HasUnreadableIndex path := by
  constructor
  · rintro ⟨fault, h⟩
    rcases isPartedInto_or_form path with ⟨texts, hparts⟩ | ⟨form, hform⟩
    · rw [read_eq_readSegments hparts] at h
      exact ⟨texts, hparts, readSegments_eq_integer_iff.mp ⟨fault, h⟩⟩
    · rw [hform] at h
      cases h
  · rintro ⟨texts, hparts, hstop⟩
    rw [read_eq_readSegments hparts]
    exact readSegments_eq_integer_iff.mpr hstop

theorem not_hasUnreadableIndex (h : read path = .ok segments) : ¬ HasUnreadableIndex path := by
  rw [← read_eq_integer_iff, h]
  simp

theorem isWellFormed_of_read (h : read path = .ok segments) : IsWellFormed segments := by
  rcases isPartedInto_or_form path with ⟨texts, hparts⟩ | ⟨form, hform⟩
  · rw [read_eq_readSegments hparts] at h
    exact isWellFormed_of_readSegments hparts.ne_nil h
  · rw [hform] at h
    cases h

/-! ## Assembly -/

/-- The failure is one of assembling a document, of which the paths are a part. -/
def IsAssemblyReport (failure : Failure) : Prop :=
  failure.IsReportOf .path ∨ failure.IsReportOf .document

theorem isReportOf_ofPath_iff {fault : Fault} {area : Area} (h : read path = .error fault) :
    (Failure.ofPath path fault).IsReportOf area ↔ .path = area ∧ ¬ HasUnreadableIndex path := by
  rw [← read_eq_integer_iff, h]
  cases fault with
  | form fault => simp [Failure.ofPath, Failure.IsReportOf, Report.about, Report.make]
  | integer fault => simp [Failure.ofPath, Failure.IsReportOf]

theorem failsWith_belowRoot_of_read {root : String} (h : read path = .ok segments) :
    FailsWith (· = .elsewhere path root) (Document.belowRoot root path) := by
  unfold Document.belowRoot
  rw [h]
  split
  · rename_i hread
    cases hread
  · split
    · exact failsWith_ok _ _
    · exact failsWith_error.mpr rfl
  · exact failsWith_error.mpr rfl

theorem failsWith_addAssignment_iff {root value : String} {document : Node} :
    FailsWith (fun fault => IsAssemblyReport (.ofAssembly fault))
      (Document.addAssignment root document (path, value)) ↔ ¬ HasUnreadableIndex path := by
  unfold Document.addAssignment
  cases hread : read path with
  | error fault =>
      have hbelow : Document.belowRoot root path = .error (.path path fault) := by
        rw [Document.belowRoot, hread]
      have hreport : IsAssemblyReport (.ofPath path fault) ↔ ¬ HasUnreadableIndex path := by
        simp [IsAssemblyReport, isReportOf_ofPath_iff hread]
      rw [← hreport, hbelow]
      cases fault <;> exact failsWith_error
  | ok segments =>
      refine iff_of_true (FailsWith.bind ?_ fun _ _ => failsWith_ok _ _)
        (not_hasUnreadableIndex hread)
      refine (failsWith_belowRoot_of_read hread).imp fun fault hfault => ?_
      exact hfault ▸ .inr (Failure.isReportOf_about _ _ _)

/-- Assembly gets as far as a path with an index whose digits make no number. -/
def ReachesUnreadableIndex (root : String) (assignments : List (String × String)) : Prop :=
  ∃ before path value after document, assignments = before ++ (path, value) :: after ∧
    Document.assemble root before = .ok document ∧ HasUnreadableIndex path

theorem failsWith_assemble_iff {root : String} {assignments : List (String × String)} :
    FailsWith (fun fault => IsAssemblyReport (.ofAssembly fault))
      (Document.assemble root assignments) ↔ ¬ ReachesUnreadableIndex root assignments := by
  rw [Document.assemble, failsWith_foldlM_iff]
  simp only [ReachesUnreadableIndex, not_exists, not_and, Prod.forall, failsWith_addAssignment_iff]
  exact Iff.rfl

/-- A path is read as segments of the right form, or it is refused for its form, unless it has an
index whose digits make no number.  Such an index is refused as an integer.  So assembly fails with
a report of its own unless it gets as far as such an index. -/
theorem paths_are_read_or_reported_iff (path root : String) (assignments : List (String × String)) :
    (((∃ segments, read path = .ok segments ∧ IsWellFormed segments) ∨
        ∃ fault, read path = .error fault ∧ (Failure.ofPath path fault).IsReportOf .path) ↔
      ¬ HasUnreadableIndex path) ∧
    ((∃ fault, read path = .error (.integer fault)) ↔ HasUnreadableIndex path) ∧
    (FailsWith (fun fault => IsAssemblyReport (.ofAssembly fault))
        (Document.assemble root assignments) ↔ ¬ ReachesUnreadableIndex root assignments) := by
  refine ⟨?_, read_eq_integer_iff, failsWith_assemble_iff⟩
  cases hread : read path with
  | ok segments =>
      exact iff_of_true (.inl ⟨segments, rfl, isWellFormed_of_read hread⟩)
        (not_hasUnreadableIndex hread)
  | error fault => simp [isReportOf_ofPath_iff hread]

/-- A superscript two is a digit and no decimal one. -/
theorem read_superscript_index : read "/a[²]" = .error (.integer (.notNumeral "²")) :=
  eq_error_of_faultOf? (by decide +kernel)

theorem superscript_index_is_not_reported :
    (¬ ((∃ segments, read "/a[²]" = .ok segments) ∨
      ∃ fault, read "/a[²]" = .error fault ∧ (Failure.ofPath "/a[²]" fault).IsReportOf .path)) ∧
    ¬ FailsWith (fun fault => IsAssemblyReport (.ofAssembly fault))
      (Document.assemble "a" [("/a[²]", "")]) := by
  have hindex : HasUnreadableIndex "/a[²]" := read_eq_integer_iff.mp ⟨_, read_superscript_index⟩
  constructor
  · rintro (⟨segments, hread⟩ | ⟨fault, hread, hreport⟩)
    · exact not_hasUnreadableIndex hread hindex
    · exact ((isReportOf_ofPath_iff hread).mp hreport).2 hindex
  · rw [failsWith_assemble_iff, not_not]
    exact ⟨[], "/a[²]", "", [], Node.leaf "a" 1, rfl, rfl, hindex⟩

end GeoMetadata.Path
