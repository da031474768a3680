import GeoMetadata.CommandLine.Run
import GeoMetadata.Proofs.Profile.Faults
import GeoMetadata.Proofs.Profile.Serialization
import GeoMetadata.Proofs.Steps

/-!
# Runs do not fail on the form of a document

A run has an exit code for documents that cannot be assembled, and one for everything else that is
reported in no area of its own.  No run ends with either of them (`Ends` is what all its steps
satisfy): loading fails on files, records and settings, a conversion fails on values, and once
there are assignments there is a document and its element.
-/

namespace GeoMetadata.CommandLine

open Profile (Serialized exists_serialized failsWith_assignments)

/-- The failure is neither one of the form of a document nor one without an area. -/
def IsSpared (failure : Failure) : Prop :=
  (Ending.ofFailure failure).code ≠ 3 ∧ (Ending.ofFailure failure).code ≠ 4

/-- From any progress on, the step gives such a result, or it fails with a failure that is
spared. -/
def Ends {α : Type} (step : Step α) (good : α → Prop) : Prop :=
  Ensures (fun _ => True) step (fun a _ => good a) (fun failure _ => IsSpared failure)

theorem isSpared_of_code (code : Nat) {failure : Failure}
    (hcode : (Ending.ofFailure failure).code = code) (h : code ≠ 3 ∧ code ≠ 4) :
    IsSpared failure := by
  rw [IsSpared, hcode]
  exact h

section Steps

variable {α β : Type} {good : α → Prop} {better : β → Prop}

theorem ends_pure {a : α} (h : good a) : Ends (pure a) good := ensures_pure fun _ _ => h

theorem ends_throw {failure : Failure} (h : IsSpared failure) :
    Ends (throw failure : Step α) good := ensures_throw fun _ _ => h

theorem Ends.bind {step : Step α} {next : α → Step β} (h : Ends step good)
    (hnext : ∀ a, good a → Ends (next a) better) : Ends (step >>= next) better :=
  Ensures.bind h fun a reached hgood => hnext a hgood reached trivial

theorem ends_expect {e : Except Failure α} (hfails : FailsWith IsSpared e)
    (hgood : ∀ a, e = .ok a → good a) : Ends (expect e) good := by
  cases e with
  | ok a => exact ends_pure (hgood a rfl)
  | error failure => exact ends_throw (hfails failure rfl)

theorem ends_get : Ends (get : Step Progress) fun _ => True := fun _ _ => trivial

theorem ends_put (output : Output) : Ends (put output) fun _ => True := fun _ _ => trivial

theorem ends_log (entry : LogEntry) : Ends (log entry) fun _ => True := ends_put _

theorem ends_forIn {xs : List α} {round : α → PUnit → Step (ForInStep PUnit)}
    (h : ∀ x, Ends (round x ⟨⟩) fun _ => True) :
    Ends (forIn xs PUnit.unit round) fun _ => True := ensures_forIn fun x _ => h x

end Steps

/-! ## Loading -/

/-- Reports in the areas of records and of settings are spared. -/
theorem isSpared_about {area : Area} (harea : area = .record ∨ area = .settings) (message : String)
    (subject : Option String) : IsSpared (.reported (.about area message subject)) := by
  rcases harea with rfl | rfl
  · exact isSpared_of_code 1 rfl (by decide)
  · exact isSpared_of_code 2 rfl (by decide)

theorem isSpared_ofFile {area : Area} (harea : area = .record ∨ area = .settings)
    (subject : Option String) (fault : StructuredFile.Fault) :
    IsSpared (.ofFile area subject fault) := by
  have hreport (message : String) : IsSpared (.reported (.about area message subject)) :=
    isSpared_about harea message subject
  unfold Failure.ofFile
  split
  · exact isSpared_of_code 5 rfl (by decide)
  · exact isSpared_of_code 9 rfl (by decide)
  · exact isSpared_of_code 9 rfl (by decide)
  · exact hreport _
  · exact isSpared_of_code 9 rfl (by decide)
  · exact hreport _

theorem failsWith_load_settings (readers : Readers) (tree : FileTree) (path : FilePath) :
    FailsWith IsSpared (Settings.load readers tree path) := by
  have hissue (issues : List Issue) :
      IsSpared (.reported (Settings.issueReport path.name issues)) := by
    cases issues <;> exact isSpared_about (.inr rfl) _ _
  have hvalid (checked : Checked Settings) : FailsWith IsSpared
      (checked.mapError fun issues => .reported (Settings.issueReport path.name issues)) :=
    failsWith_mapError fun issues _ => hissue issues
  unfold Settings.load
  split
  · exact failsWith_error.mpr (isSpared_ofFile (.inr rfl) _ _)
  · exact hvalid _
  · exact hvalid _
  · exact failsWith_error.mpr (isSpared_about (.inr rfl) _ _)

theorem failsWith_load_record (readers : Readers) (tree : FileTree) (path : FilePath) :
    FailsWith IsSpared (Record.load readers tree path) := by
  unfold Record.load
  split
  · exact failsWith_error.mpr (isSpared_ofFile (.inl rfl) _ _)
  · exact failsWith_mapError fun fault _ => isSpared_about (.inl rfl) _ _
  · exact failsWith_error.mpr (isSpared_about (.inl rfl) _ _)

theorem ends_noteMissing (path : FilePath) : Ends (noteMissing path) fun _ => True := by
  refine ends_get.bind fun progress _ => ?_
  split
  · exact ends_log _
  · exact ends_pure trivial

theorem ends_settings (readers : Readers) (path? : Option FilePath) :
    Ends (settings readers path?) fun _ => True := by
  cases path? with
  | none => exact ends_pure trivial
  | some path =>
      refine (ends_noteMissing path).bind fun _ _ => ends_get.bind fun progress _ => ?_
      have hload : Ends (expect (Settings.load readers progress.tree path)) fun _ => True :=
        ends_expect (failsWith_load_settings _ _ _) fun _ _ => trivial
      exact hload.bind fun _ _ => (ends_log _).bind fun _ _ => ends_pure trivial

theorem ends_record (readers : Readers) (path : FilePath) :
    Ends (record readers path) fun _ => True := by
  refine (ends_noteMissing path).bind fun _ _ => ends_get.bind fun progress _ => ?_
  have hload : Ends (expect (Record.load readers progress.tree path)) fun _ => True :=
    ends_expect (failsWith_load_record _ _ _) fun _ _ => trivial
  exact hload.bind fun _ _ => (ends_log _).bind fun _ _ => ends_pure trivial

/-! ## Converting -/

/-- The assignments that a run goes on with are those of the profile. -/
theorem ends_assignments (source : Profile.Source) :
    Ends (assignments source) fun tracker => Profile.assignments source = .ok tracker := by
  have hlogged (draft : Profile.Draft) : Ends
      (forIn draft.events.reverse PUnit.unit fun event _ => do
        log (.ofEvent event)
        pure (ForInStep.yield PUnit.unit)) fun _ => True :=
    ends_forIn fun event => (ends_log _).bind fun _ _ => ends_pure trivial
  unfold assignments Profile.assignments
  obtain ⟨draft, _ | fault⟩ := Profile.run source
  · exact (hlogged draft).bind fun _ _ => ends_pure rfl
  · exact (hlogged draft).bind fun _ _ => ends_throw (isSpared_of_code 9 rfl (by decide))

theorem ends_documentText (surroundings : Surroundings) (settings : Settings) (record : Record) :
    Ends (documentText surroundings settings record) fun _ => True := by
  unfold documentText
  refine Ends.bind (ends_forIn fun entry => ?mapping) fun _ _ => (ends_log _).bind fun _ _ => ?_
  case mapping =>
    cases LogEntry.ofMapping? entry with
    | none => exact ends_pure trivial
    | some entry => exact (ends_log entry).bind fun _ _ => ends_pure trivial
  refine (ends_assignments _).bind fun tracker htracker => ?_
  -- From here on the run cannot fail: there are assignments, so all further steps have results.
  obtain ⟨document, element, h⟩ := exists_serialized htracker
  have hassemble : Ends (expect ((Converter.assemble tracker).mapError .ofConverter))
      (document = ·) := by
    rw [h.assembled]
    exact ends_pure rfl
  refine hassemble.bind fun _ hdocument => (ends_log _).bind fun _ _ => (ends_log _).bind fun _ _ => ?_
  subst hdocument
  have helement : Ends (expect ((Converter.element document).mapError .ofConverter))
      (element = ·) := by
    rw [h.built]
    exact ends_pure rfl
  have hdropped : Ends
      (forIn (droppedEntries document) PUnit.unit fun entry _ => do
        log entry
        pure (ForInStep.yield PUnit.unit)) fun _ => True :=
    ends_forIn fun entry => (ends_log entry).bind fun _ _ => ends_pure trivial
  exact helement.bind fun _ _ => hdropped.bind fun _ _ => ends_pure trivial

/-! ## Runs -/

/-- A change of files that is refused is a failure of the system. -/
theorem ends_change (action : FileTree.Change Unit) : Ends (change action) fun _ => True := by
  intro progress _
  rw [EStateM.run, change]
  cases action.run progress.tree with
  | ok done tree => trivial
  | error fault tree => exact isSpared_of_code 5 rfl (by decide)

theorem ends_deliver (text : String) (path? : Option FilePath) :
    Ends (deliver text path?) fun _ => True := by
  cases path? with
  | none => exact ends_put _
  | some path => exact (ends_change _).bind fun _ _ => ends_log _

theorem ends_steps (surroundings : Surroundings) (arguments : Arguments) :
    Ends (steps surroundings arguments) fun _ => True :=
  (ends_settings _ _).bind fun _ _ => (ends_record _ _).bind fun _ _ =>
    (ends_documentText _ _ _).bind fun _ _ => ends_deliver _ _

theorem exitCode_run_ne (surroundings : Surroundings) (arguments : Arguments) :
    (run surroundings arguments).exitCode ≠ 3 ∧ (run surroundings arguments).exitCode ≠ 4 := by
  have hsteps := ends_steps surroundings arguments ⟨surroundings.tree, []⟩ trivial
  unfold run
  split
  · show 0 ≠ 3 ∧ 0 ≠ 4
    decide
  · rename_i failure progress hrun
    rw [hrun] at hsteps
    exact hsteps

/-- A conversion fails on a value of the record, or its document is made. -/
theorem failsWith_document (source : Profile.Source) :
    FailsWith (fun fault => ∃ found, fault = .conversion found ∧ found.IsOfValue)
      (Converter.document source) := by
  unfold Converter.document Converter.assignments
  cases hassignments : Profile.assignments source with
  | error found =>
      have hvalue : found.IsOfValue := failsWith_assignments source found hassignments
      exact failsWith_error.mpr ⟨found, rfl, hvalue⟩
  | ok tracker =>
      obtain ⟨document, element, h⟩ := exists_serialized hassignments
      exact fun fault hfault => nomatch h.assembled.symm.trans hfault

/-- If a record has assignments, then its document and the element of that are made: all paths lead
to places below the root, all prefixes are declared at the root, and all texts are texts of XML.
A conversion without a document has failed on a value, and on no path, index or name.  So the
program never ends with the exit codes of documents that cannot be assembled. -/
theorem serialization_never_fails :
    (∀ source tracker, Profile.assignments source = .ok tracker →
      ∃ document element, Converter.document source = .ok document ∧
        Serialized tracker document element) ∧
    (∀ source, FailsWith (fun fault => ∃ found, fault = .conversion found ∧ found.IsOfValue)
      (Converter.document source)) ∧
    (∀ stop : Stop, stop.exitCode ≠ 3 ∧ stop.exitCode ≠ 4) ∧
    ∀ surroundings arguments,
      (run surroundings arguments).exitCode ≠ 3 ∧ (run surroundings arguments).exitCode ≠ 4 := by
  refine ⟨?serialized, failsWith_document, ?stops, exitCode_run_ne⟩
  case serialized =>
    intro source tracker hok
    obtain ⟨document, element, h⟩ := exists_serialized hok
    have hdocument : Converter.document source = .ok document := by
      rw [Converter.document, Converter.assignments, hok]
      exact h.assembled
    exact ⟨document, element, hdocument, h⟩
  case stops =>
    rintro (_ | fault)
    · show 0 ≠ 3 ∧ 0 ≠ 4
      decide
    · show 2 ≠ 3 ∧ 2 ≠ 4
      decide

theorem sample_serialization_never_fails :
    ∃ tracker document element, Profile.assignments Profile.sampleSource = .ok tracker ∧
      Converter.document Profile.sampleSource = .ok document ∧
      Serialized tracker document element := by
  obtain ⟨tracker, hok⟩ := Profile.succeeds_assignments_sampleSource
  obtain ⟨document, element, hdocument, h⟩ :=
    serialization_never_fails.1 Profile.sampleSource tracker hok
  exact ⟨tracker, document, element, hok, hdocument, h⟩

end GeoMetadata.CommandLine
