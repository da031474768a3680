import GeoMetadata.Profile.Conversion
import GeoMetadata.Proofs.Outcome

/-!
# What a conversion assigns

A run of the sections adds to a draft, section by section.  `contributionsFrom` keeps only the
part that decides the outcome: what each section gives from the progress that the sections
before it reach.  A conversion succeeds exactly if every section gives something and every
write among it has a path, and then the assignments are those of all writes, in order
(`assignments_eq_ok_iff`).  Everything that is said about conversions is drawn from this.
-/

namespace GeoMetadata.Profile

/-- What some sections give, each from the progress that those before it reach. -/
def contributionsFrom (source : Source) :
    List Section → Progress → Except ConversionFault (List Contribution)
  | [], _ => .ok []
  | part :: rest, progress => do
    let first ← part.contribute source progress
    let others ← contributionsFrom source rest first.progress
    .ok (first :: others)

/-- What the sections of a document give. -/
def contributions (source : Source) : Except ConversionFault (List Contribution) :=
  contributionsFrom source sections Draft.start.progress

/-- The writes of some contributions, in order. -/
def allWrites (parts : List Contribution) : List Write := parts.flatMap Contribution.writes

theorem allWrites_append (first second : List Contribution) :
    allWrites (first ++ second) = allWrites first ++ allWrites second := List.flatMap_append

@[simp] theorem allWrites_cons (part : Contribution) (rest : List Contribution) :
    allWrites (part :: rest) = part.writes ++ allWrites rest := rfl

/-- Sections run in two parts. -/
theorem contributionsFrom_append {source : Source} {first second : List Section}
    {progress : Progress} {given : List Contribution}
    (hok : contributionsFrom source (first ++ second) progress = .ok given) :
    ∃ before after reached, contributionsFrom source first progress = .ok before ∧
      contributionsFrom source second reached = .ok after ∧ given = before ++ after := by
  induction first generalizing progress given with
  | nil => exact ⟨[], given, progress, rfl, hok, rfl⟩
  | cons part rest ih =>
      obtain ⟨one, hone, hok⟩ := bind_eq_ok_iff.mp hok
      obtain ⟨others, hothers, hok⟩ := bind_eq_ok_iff.mp hok
      obtain rfl := Except.ok.inj hok
      obtain ⟨before, after, reached, hbefore, hafter, rfl⟩ := ih hothers
      refine ⟨one :: before, after, reached, ?_, hafter, rfl⟩
      rw [contributionsFrom, hone]
      show (contributionsFrom source rest one.progress >>= _) = _
      rw [hbefore]
      rfl

/-! ## Sections that number nothing through -/

/-- The section passes on the numbers that it is told. -/
def Section.KeepsProgress (part : Section) : Prop :=
  ∀ source progress given, part.contribute source progress = .ok given → given.progress = progress

theorem keepsProgress_plain (name : String) (writes : Source → List Write) :
    (Section.plain name writes).KeepsProgress := by
  intro source progress given hok
  obtain rfl := Except.ok.inj hok
  rfl

theorem keepsProgress_checked (name : String)
    (writes : Source → Except ConversionFault (List Write)) :
    (Section.checked name writes).KeepsProgress := by
  intro source progress given hok
  obtain ⟨found, -, rfl⟩ := map_eq_ok_iff.mp hok
  rfl

/-- After sections that number nothing through, the others begin with the same numbers. -/
theorem contributionsFrom_append_of_keepsProgress {source : Source} {first second : List Section}
    {progress : Progress} {given : List Contribution}
    (hkeeps : ∀ part ∈ first, part.KeepsProgress)
    (hok : contributionsFrom source (first ++ second) progress = .ok given) :
    ∃ before after, contributionsFrom source first progress = .ok before ∧
      contributionsFrom source second progress = .ok after ∧ given = before ++ after := by
  induction first generalizing given with
  | nil => exact ⟨[], given, rfl, hok, rfl⟩
  | cons part rest ih =>
      obtain ⟨hpart, hrest⟩ := List.forall_mem_cons.mp hkeeps
      obtain ⟨one, hone, hok⟩ := bind_eq_ok_iff.mp hok
      obtain ⟨others, hothers, hok⟩ := bind_eq_ok_iff.mp hok
      obtain rfl := Except.ok.inj hok
      rw [hpart _ _ _ hone] at hothers
      obtain ⟨before, after, hbefore, hafter, rfl⟩ := ih hrest hothers
      refine ⟨one :: before, after, ?_, hafter, rfl⟩
      rw [← hpart _ _ _ hone] at hbefore
      exact bind_eq_ok_iff.mpr ⟨one, hone, bind_eq_ok_iff.mpr ⟨before, hbefore, rfl⟩⟩

/-! ## Runs -/

theorem add_eq_ok_iff {draft next : Draft} {name : String} {part : Contribution} :
    draft.add name part = .ok next ↔
      ∃ entries, part.writes.mapM Write.assignment = .ok entries ∧
        next = ⟨draft.assignments.insertMany entries, part.progress,
          .sectionDone name ((draft.assignments.insertMany entries).size - draft.assignments.size)
            :: (part.remarks.map Event.remark).reverse ++ draft.events⟩ := by
  unfold Draft.add
  cases part.writes.mapM Write.assignment with
  | error fault => simp
  | ok entries => simp [eq_comm]

theorem mapM_assignment_append {first second : List Write} {entries : List (String × String)} :
    (first ++ second).mapM Write.assignment = .ok entries ↔
      ∃ before after, first.mapM Write.assignment = .ok before ∧
        second.mapM Write.assignment = .ok after ∧ entries = before ++ after := by
  rw [List.mapM_append]
  simp only [bind_eq_ok_iff, pure, Except.pure, Except.ok.injEq]
  constructor
  · rintro ⟨before, hbefore, after, hafter, rfl⟩
    exact ⟨before, after, hbefore, hafter, rfl⟩
  · rintro ⟨before, after, hbefore, hafter, rfl⟩
    exact ⟨before, hbefore, after, hafter, rfl⟩

/-- A run that ends without a fault has assigned what the sections give. -/
theorem runSections_eq_none_iff {source : Source} {parts : List Section} {draft : Draft}
    {tracker : Assignments} :
    (∃ done, runSections source parts draft = (done, none) ∧ done.assignments = tracker) ↔
      ∃ given entries, contributionsFrom source parts draft.progress = .ok given ∧
        (allWrites given).mapM Write.assignment = .ok entries ∧
        tracker = draft.assignments.insertMany entries := by
  induction parts generalizing draft with
  | nil => simp [runSections, contributionsFrom, allWrites, pure, Except.pure, eq_comm]
  | cons part rest ih =>
      simp only [contributionsFrom, bind_eq_ok_iff, Except.ok.injEq]
      cases hextend : part.extend source draft with
      | error fault =>
          simp only [runSections, hextend, Prod.mk.injEq, reduceCtorEq, and_false, false_and,
            exists_false, false_iff]
          -- If the writes of the whole run had paths, so would those of this section, and it could
          -- be added.
          rintro ⟨-, entries, ⟨first, hfirst, others, -, rfl⟩, hentries, -⟩
          obtain ⟨before, -, hbefore, -, -⟩ := mapM_assignment_append.mp hentries
          have hadd := (@add_eq_ok_iff draft _ part.name first).mpr ⟨before, hbefore, rfl⟩
          simp [Section.extend, hfirst, bind, Except.bind, hadd] at hextend
      | ok extended =>
          obtain ⟨first, hfirst, hadd⟩ := bind_eq_ok_iff.mp hextend
          obtain ⟨before, hbefore, rfl⟩ := add_eq_ok_iff.mp hadd
          simp only [runSections, hextend, ih]
          constructor
          · rintro ⟨others, after, hothers, hafter, rfl⟩
            exact ⟨first :: others, before ++ after, ⟨first, hfirst, others, hothers, rfl⟩,
              mapM_assignment_append.mpr ⟨before, after, hbefore, hafter, rfl⟩,
              (OrderedMap.insertMany_append _ _ _).symm⟩
          · rintro ⟨-, entries, ⟨first', hfirst', others, hothers, rfl⟩, hentries, rfl⟩
            obtain rfl : first = first' := by simpa [hfirst] using hfirst'
            obtain ⟨before', after, hbefore', hafter, rfl⟩ := mapM_assignment_append.mp hentries
            obtain rfl : before = before' := by simpa [hbefore] using hbefore'
            exact ⟨others, after, hothers, hafter, OrderedMap.insertMany_append _ _ _⟩

/-- A conversion gives the assignments of all writes of its sections, and it gives any only if
the sections and the writes do. -/
theorem assignments_eq_ok_iff {source : Source} {tracker : Assignments} :
    assignments source = .ok tracker ↔
      ∃ given entries, contributions source = .ok given ∧
        (allWrites given).mapM Write.assignment = .ok entries ∧
        tracker = OrderedMap.ofList entries := by
  refine Iff.trans ?_ (@runSections_eq_none_iff source sections .start tracker)
  unfold assignments run
  split
  · rename_i draft heq
    simp [heq]
  · rename_i draft fault heq
    simp [heq]

theorem succeeds_assignments {source : Source} :
    Succeeds (assignments source) ↔
      ∃ given, contributions source = .ok given ∧
        ∀ write ∈ allWrites given, Succeeds write.assignment := by
  constructor
  · rintro ⟨tracker, htracker⟩
    obtain ⟨given, entries, hgiven, hentries, -⟩ := assignments_eq_ok_iff.mp htracker
    exact ⟨given, hgiven, succeeds_mapM.mp ⟨entries, hentries⟩⟩
  · rintro ⟨given, hgiven, hwrites⟩
    obtain ⟨entries, hentries⟩ := succeeds_mapM.mpr hwrites
    exact ⟨_, assignments_eq_ok_iff.mpr ⟨given, entries, hgiven, hentries, rfl⟩⟩

end GeoMetadata.Profile
