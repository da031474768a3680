import GeoMetadata.CommandLine.Run
import GeoMetadata.Proofs.Files.FileTree
import GeoMetadata.Proofs.Profile.Serialization

/-!
# Runs deliver the whole document or nothing

A run prepares its document, and only then puts it out or writes it.  The preparation comes to what
`preparedText` says, which knows nothing of a log and of steps: each step has the outcome of its
part of it (`Prepares`).  All of them leave the files as they are and put out nothing but entries of
the log.  As long as they go on, no entry is a warning (`Silent`), and where one of them fails,
there may be errors among the entries (`Halted`).  Delivery is the only step that changes files, and
`FileTree.ensures_store` says what it does to them.
-/

namespace GeoMetadata

/-- The text of the file of a source's document. -/
def Converter.fileText (source : Profile.Source) : Except Converter.Fault String := do
  let document ← Converter.document source
  let element ← Converter.element document
  .ok (element.toFileText true)

namespace CommandLine

open FileTree (SameFiles Wrote)

/-- The settings that a run converts with. -/
def loadedSettings (readers : Readers) (tree : FileTree) : Option FilePath → Except Failure Settings
  | none => .ok .default
  | some path => Settings.load readers tree path

/-- The text of the document of the record that the arguments name, under the settings that they
name. -/
def preparedText (surroundings : Surroundings) (arguments : Arguments) : Except Failure String := do
  let settings ← loadedSettings surroundings.readers surroundings.tree arguments.configFile
  let record ← Record.load surroundings.readers surroundings.tree arguments.recordFile
  (Converter.fileText ((Converter.ofSettings settings).source surroundings.now surroundings.gmlId
    record)).mapError .ofConverter

/-- What a run shows, with the times that parts of it are put out at. -/
def Result.shown (result : Result) (style : LogStyle) (time : Output → String) : String :=
  String.join (result.outputs.map fun output => output.text style (time output))

/-- The output is an entry of the log. -/
def Output.IsLog (output : Output) : Prop := ∃ entry, output = .log entry

/-- The entry is no warning. -/
def LogEntry.IsQuiet (entry : LogEntry) : Prop := entry.level = .debug ∨ entry.level = .info

/-- The output is an entry of the log that is no warning. -/
def Output.IsQuiet (output : Output) : Prop := ∃ entry, output = .log entry ∧ entry.IsQuiet

theorem Output.IsQuiet.isLog {output : Output} (h : output.IsQuiet) : output.IsLog := by
  obtain ⟨entry, hentry, -⟩ := h
  exact ⟨entry, hentry⟩

/-- Nothing has happened yet but quiet entries of the log. -/
structure Silent (tree : FileTree) (progress : Progress) : Prop where
  tree_eq : progress.tree = tree
  quiet : ∀ output ∈ progress.outputs, output.IsQuiet

/-- Nothing has happened but entries of the log. -/
structure Halted (tree : FileTree) (progress : Progress) : Prop where
  tree_eq : progress.tree = tree
  logs : ∀ output ∈ progress.outputs, output.IsLog

variable {tree : FileTree} {readers : Readers}

theorem Silent.halted {progress : Progress} (h : Silent tree progress) : Halted tree progress :=
  ⟨h.tree_eq, fun output houtput => (h.quiet output houtput).isLog⟩

/-- The step has this outcome, and nothing else has happened. -/
def Prepares {α : Type} (tree : FileTree) (step : Step α) (outcome : Except Failure α) : Prop :=
  Ensures (Silent tree) step (fun a progress => outcome = .ok a ∧ Silent tree progress)
    (fun failure progress => outcome = .error failure ∧ Halted tree progress)

/-! ## Steps -/

section Steps

variable {α β : Type}

theorem prepares_pure {a : α} : Prepares tree (pure a) (.ok a) :=
  ensures_pure fun _ hsilent => ⟨rfl, hsilent⟩

theorem prepares_throw {failure : Failure} :
    Prepares tree (throw failure : Step α) (.error failure) :=
  ensures_throw fun _ hsilent => ⟨rfl, hsilent.halted⟩

theorem Prepares.bind {step : Step α} {next : α → Step β} {outcome : Except Failure α}
    {rest : α → Except Failure β} (h : Prepares tree step outcome)
    (hnext : ∀ a, outcome = .ok a → Prepares tree (next a) (rest a)) :
    Prepares tree (step >>= next) (outcome >>= rest) := by
  refine Ensures.bind (h.imp (fun _ _ => id) fun failure _ hfailed => ?_) fun a => ?_
  · exact ⟨by rw [hfailed.1]; rfl, hfailed.2⟩
  · rintro reached ⟨rfl, hreached⟩
    exact hnext a rfl reached hreached

theorem Prepares.andThen {a : α} {step : Step α} {next : α → Step β} {outcome : Except Failure β}
    (h : Prepares tree step (.ok a)) (hnext : Prepares tree (next a) outcome) :
    Prepares tree (step >>= next) outcome := by
  have hrest : ∀ b, (.ok a : Except Failure α) = .ok b → Prepares tree (next b) outcome :=
    fun _ hstep => Except.ok.inj hstep ▸ hnext
  exact h.bind hrest

theorem prepares_expect (outcome : Except Failure α) : Prepares tree (expect outcome) outcome := by
  cases outcome with
  | ok a => exact prepares_pure
  | error failure => exact prepares_throw

theorem prepares_log {entry : LogEntry} (h : entry.IsQuiet) : Prepares tree (log entry) (.ok ()) :=
  fun _ hsilent =>
    ⟨rfl, hsilent.tree_eq, List.forall_mem_cons.mpr ⟨⟨entry, rfl, h⟩, hsilent.quiet⟩⟩

/-- A loop that logs quiet entries comes to nothing else. -/
theorem prepares_forIn {xs : List α} {round : α → PUnit → Step (ForInStep PUnit)}
    (h : ∀ x ∈ xs, Prepares tree (round x ⟨⟩) (.ok (.yield ⟨⟩))) :
    Prepares tree (forIn xs PUnit.unit round) (.ok ⟨⟩) := by
  have hrun : Ensures (Silent tree) (forIn xs PUnit.unit round) (fun _ => Silent tree)
      (fun _ _ => False) :=
    ensures_forIn fun x hx => (h x hx).imp (fun _ _ hreached => hreached.2) nofun
  exact hrun.imp (fun _ _ hreached => ⟨rfl, hreached⟩) nofun

end Steps

/-! ## Loading -/

theorem ensures_noteMissing (path : FilePath) : Ensures (Silent tree) (noteMissing path)
    (fun _ progress => Halted tree progress ∧ (tree.exists? path = true → Silent tree progress))
    (fun _ _ => False) := by
  refine ensures_get.bind fun seen => ?_
  split
  · rename_i hmissing
    rintro _ ⟨rfl, hsilent⟩
    rw [hsilent.tree_eq] at hmissing
    have hlogged : (Output.log (.fileMissing path)).IsLog := ⟨_, rfl⟩
    exact ⟨⟨hsilent.tree_eq, List.forall_mem_cons.mpr ⟨hlogged, hsilent.halted.logs⟩⟩,
      fun hexists => by simp [hexists] at hmissing⟩
  · exact ensures_pure fun _ hseen => ⟨hseen.2.halted, fun _ => hseen.2⟩

/-- What is loaded from a file leaves an entry in the log. If the file is missing, there is an error
in the log, but then nothing is loaded. -/
theorem prepares_load {α : Type} (load : FileTree → Except Failure α) {path : FilePath}
    {entry : α → LogEntry} (hexists : ∀ a, load tree = .ok a → tree.exists? path = true)
    (hentry : ∀ a, (entry a).IsQuiet) :
    Prepares tree (do
      noteMissing path
      let a ← expect (load (← get).tree)
      log (entry a)
      pure a) (load tree) := by
  refine ((ensures_noteMissing path).imp (fun _ _ => id) nofun).bind fun _ =>
    ensures_get.bind fun seen => ?_
  rintro _ ⟨rfl, hhalted, hsilent⟩
  rw [hhalted.tree_eq]
  cases hload : load tree with
  | error failure => exact ⟨rfl, hhalted⟩
  | ok a =>
      have hlogged : Prepares tree (do log (entry a); pure a) (.ok a) :=
        (prepares_log (hentry a)).andThen prepares_pure
      exact hlogged seen (hsilent (hexists a hload))

/-- Only files that are there are loaded. -/
theorem exists?_of_load {path : FilePath} {value : Value}
    (h : StructuredFile.load readers tree path = .ok value) : tree.exists? path = true := by
  unfold StructuredFile.load at h
  split at h
  · cases h
  · rename_i hexists
    simpa using hexists

theorem exists?_of_load_settings {path : FilePath} {settings : Settings}
    (h : Settings.load readers tree path = .ok settings) : tree.exists? path = true := by
  unfold Settings.load at h
  split at h
  · cases h
  · exact exists?_of_load ‹_›
  · exact exists?_of_load ‹_›
  · cases h

theorem exists?_of_load_record {path : FilePath} {record : Record}
    (h : Record.load readers tree path = .ok record) : tree.exists? path = true := by
  unfold Record.load at h
  split at h
  · cases h
  · exact exists?_of_load ‹_›
  · cases h

theorem prepares_settings (path? : Option FilePath) :
    Prepares tree (settings readers path?) (loadedSettings readers tree path?) := by
  cases path? with
  | none => exact prepares_pure
  | some path =>
      have hexists : ∀ settings, Settings.load readers tree path = .ok settings →
          tree.exists? path = true := fun _ => exists?_of_load_settings
      exact prepares_load (Settings.load readers · path) hexists fun _ => .inl rfl

theorem prepares_record (path : FilePath) :
    Prepares tree (record readers path) (Record.load readers tree path) := by
  have hexists : ∀ record, Record.load readers tree path = .ok record → tree.exists? path = true :=
    fun _ => exists?_of_load_record
  exact prepares_load (Record.load readers · path) hexists fun _ => .inl rfl

/-! ## Converting -/

theorem isQuiet_ofEvent (event : Profile.Event) : (LogEntry.ofEvent event).IsQuiet := by
  rcases event with (text | ⟨starts, ends⟩) | ⟨name, added⟩ <;> exact .inl rfl

theorem isQuiet_of_ofMapping? {text : String} {entry : LogEntry}
    (h : LogEntry.ofMapping? text = some entry) : entry.IsQuiet := by
  unfold LogEntry.ofMapping? at h
  split at h
  · cases h
  · cases h
    exact .inl rfl

theorem isQuiet_of_mem_droppedEntries {document : Node} {entry : LogEntry}
    (h : entry ∈ droppedEntries document) : entry.IsQuiet := by
  obtain ⟨text, -, hentry⟩ := List.mem_filterMap.mp h
  unfold LogEntry.dropped? at hentry
  split at hentry
  · cases hentry
  · cases hentry
    exact .inl rfl

theorem prepares_logs {α : Type} {xs : List α} {entry : α → LogEntry}
    (h : ∀ x ∈ xs, (entry x).IsQuiet) :
    Prepares tree (forIn xs PUnit.unit fun x _ => do
      log (entry x)
      pure (ForInStep.yield PUnit.unit)) (.ok ⟨⟩) :=
  prepares_forIn fun x hx => (prepares_log (h x hx)).andThen prepares_pure

theorem prepares_assignments (source : Profile.Source) :
    Prepares tree (assignments source) ((Profile.assignments source).mapError .conversion) := by
  have hlogged (draft : Profile.Draft) : Prepares tree
      (forIn draft.events.reverse PUnit.unit fun event _ => do
        log (.ofEvent event)
        pure (ForInStep.yield PUnit.unit)) (.ok ⟨⟩) :=
    prepares_logs fun event _ => isQuiet_ofEvent event
  unfold assignments Profile.assignments
  obtain ⟨draft, _ | fault⟩ := Profile.run source
  · exact (hlogged draft).andThen prepares_pure
  · exact (hlogged draft).andThen prepares_throw

theorem mapError_fileText (source : Profile.Source) :
    (Converter.fileText source).mapError Failure.ofConverter = (do
      let tracker ← (Profile.assignments source).mapError Failure.conversion
      let document ← (Converter.assemble tracker).mapError Failure.ofConverter
      let element ← (Converter.element document).mapError Failure.ofConverter
      .ok (element.toFileText true)) := by
  have hassignments : (Converter.assignments source).mapError Failure.ofConverter =
      (Profile.assignments source).mapError Failure.conversion := by
    rw [Converter.assignments]
    cases Profile.assignments source <;> rfl
  simp only [Converter.fileText, Converter.document, mapError_bind, hassignments, bind_assoc]
  rfl

/-- What has assignments has a text. -/
theorem succeeds_fileText {source : Profile.Source} (h : Succeeds (Profile.assignments source)) :
    Succeeds (Converter.fileText source) := by
  obtain ⟨tracker, hok⟩ := h
  obtain ⟨document, element, hserialized⟩ := Profile.exists_serialized hok
  have hdocument : Converter.document source = .ok document := by
    rw [Converter.document, Converter.assignments, hok]
    exact hserialized.assembled
  rw [Converter.fileText, hdocument]
  exact succeeds_bind.mpr ⟨document, rfl, succeeds_bind.mpr ⟨element, hserialized.built, succeeds_ok _⟩⟩

theorem prepares_documentText (surroundings : Surroundings) (settings : Settings)
    (record : Record) :
    Prepares tree (documentText surroundings settings record) ((Converter.fileText
      ((Converter.ofSettings settings).source surroundings.now surroundings.gmlId
        record)).mapError .ofConverter) := by
  rw [mapError_fileText]
  unfold documentText
  refine (prepares_forIn fun text _ => ?mapping).andThen ?_
  case mapping =>
    cases hentry : LogEntry.ofMapping? text with
    | none => exact prepares_pure
    | some entry => exact (prepares_log (isQuiet_of_ofMapping? hentry)).andThen prepares_pure
  refine (prepares_log (.inr rfl)).andThen ?_
  refine (prepares_assignments _).bind fun tracker _ => (prepares_expect _).bind fun document _ => ?_
  refine (prepares_log (.inl rfl)).andThen ((prepares_log (.inr rfl)).andThen ?_)
  refine (prepares_expect _).bind fun element _ => ?_
  exact (prepares_logs fun _ => isQuiet_of_mem_droppedEntries).andThen prepares_pure

/-- The steps of a run up to the text of its document. -/
def textSteps (surroundings : Surroundings) (arguments : Arguments) : Step String := do
  let settings ← settings surroundings.readers arguments.configFile
  let record ← record surroundings.readers arguments.recordFile
  documentText surroundings settings record

theorem steps_eq (surroundings : Surroundings) (arguments : Arguments) :
    steps surroundings arguments =
      textSteps surroundings arguments >>= fun text => deliver text arguments.outputFile := by
  simp only [steps, textSteps, bind_assoc]

theorem prepares_textSteps (surroundings : Surroundings) (arguments : Arguments) :
    Prepares surroundings.tree (textSteps surroundings arguments)
      (preparedText surroundings arguments) :=
  (prepares_settings _).bind fun _ _ => (prepares_record _).bind fun _ _ =>
    prepares_documentText _ _ _

/-- A record that has assignments under its settings has a text. -/
theorem succeeds_preparedText {surroundings : Surroundings} {arguments : Arguments}
    {settings : Settings} {record : Record}
    (hsettings :
      loadedSettings surroundings.readers surroundings.tree arguments.configFile = .ok settings)
    (hrecord : Record.load surroundings.readers surroundings.tree arguments.recordFile = .ok record)
    (hassignments : Succeeds (Profile.assignments ((Converter.ofSettings settings).source
      surroundings.now surroundings.gmlId record))) :
    Succeeds (preparedText surroundings arguments) := by
  obtain ⟨text, htext⟩ := succeeds_fileText hassignments
  rw [preparedText, hsettings]
  exact succeeds_bind.mpr ⟨settings, rfl, succeeds_bind.mpr
    ⟨record, hrecord, text, mapError_eq_ok_iff.mpr htext⟩⟩

/-! ## Delivering -/

/-- The text is in the file, or it is put out after quiet entries of the log. -/
structure Delivered (tree : FileTree) (text : String) (output? : Option FilePath)
    (progress : Progress) : Prop where
  written : ∀ path, output? = some path → Wrote tree path text.toUTF8.toList progress.tree
  putOut : output? = none → progress.tree = tree ∧ ∃ before,
    progress.outputs = .document text :: before ∧ ∀ output ∈ before, output.IsQuiet

/-- No file is changed, and no document is put out. -/
structure Refused (tree : FileTree) (progress : Progress) : Prop where
  sameFiles : SameFiles tree progress.tree
  logs : ∀ output ∈ progress.outputs, output.IsLog

theorem Halted.refused {progress : Progress} (h : Halted tree progress) : Refused tree progress :=
  ⟨h.tree_eq ▸ SameFiles.refl tree, h.logs⟩

/-- The failure of a change of files. -/
def IsRefusal (tree : FileTree) (action : FileTree.Change Unit) (failure : Failure) : Prop :=
  ∃ fault, tree.changed action = .error fault ∧ failure = .file fault

theorem ensures_change {action : FileTree.Change Unit} {good : FileTree → Prop}
    (h : Ensures (SameFiles tree) action (fun _ => good) (fun _ => SameFiles tree)) :
    Ensures (Silent tree) (change action) (fun _ progress => good progress.tree)
      (fun failure progress => IsRefusal tree action failure ∧ Refused tree progress) := by
  rintro progress ⟨rfl, hquiet⟩
  have haction := h progress.tree (SameFiles.refl _)
  rw [EStateM.run, change]
  cases hrun : action.run progress.tree with
  | ok done reached =>
      rw [hrun] at haction
      exact haction
  | error fault reached =>
      rw [hrun] at haction
      refine ⟨⟨fault, by rw [FileTree.changed, hrun], rfl⟩, haction, fun output houtput => ?_⟩
      exact (hquiet output houtput).isLog

/-- The failure to write a text to the file that it is to be written to. -/
def IsRefusalOf (tree : FileTree) (text : String) (output? : Option FilePath) (failure : Failure) :
    Prop :=
  ∃ path, output? = some path ∧ IsRefusal tree (FileTree.store path text.toUTF8.toList) failure

theorem ensures_deliver (text : String) (output? : Option FilePath) :
    Ensures (Silent tree) (deliver text output?) (fun _ => Delivered tree text output?)
      (fun failure progress => IsRefusalOf tree text output? failure ∧ Refused tree progress) := by
  cases output? with
  | none =>
      intro progress hsilent
      exact ⟨nofun, fun _ => ⟨hsilent.tree_eq, _, rfl, hsilent.quiet⟩⟩
  | some path =>
      have hstore : Ensures (SameFiles tree) (FileTree.store path text.toUTF8.toList)
          (fun _ => Wrote tree path text.toUTF8.toList) (fun _ => SameFiles tree) :=
        FileTree.ensures_store _ _
      refine ((ensures_change hstore).imp (fun _ _ => id) fun failure _ => ?refused).bind
        fun _ progress hwrote => ?_
      case refused => exact And.imp_left fun hrefusal => ⟨path, rfl, hrefusal⟩
      exact ⟨fun _ hpath => Option.some.inj hpath ▸ hwrote, nofun⟩

/-! ## Runs -/

/-- The failure of a run: its preparation fails with it, or the file cannot be written. -/
def IsFailureOf (surroundings : Surroundings) (arguments : Arguments) (failure : Failure) : Prop :=
  preparedText surroundings arguments = .error failure ∨
    ∃ text, preparedText surroundings arguments = .ok text ∧
      IsRefusalOf surroundings.tree text arguments.outputFile failure

theorem ensures_steps (surroundings : Surroundings) (arguments : Arguments) :
    Ensures (Silent surroundings.tree) (steps surroundings arguments)
      (fun _ progress => ∃ text, preparedText surroundings arguments = .ok text ∧
        Delivered surroundings.tree text arguments.outputFile progress)
      (fun failure progress => IsFailureOf surroundings arguments failure ∧
        Refused surroundings.tree progress) := by
  rw [steps_eq]
  refine Ensures.bind ((prepares_textSteps surroundings arguments).imp (fun _ _ => id)
    fun _ _ hfailed => ⟨.inl hfailed.1, hfailed.2.refused⟩) fun text => ?_
  rintro progress ⟨htext, hsilent⟩
  exact (ensures_deliver text arguments.outputFile).imp
    (fun _ _ hdelivered => ⟨text, htext, hdelivered⟩)
    (fun _ _ hfailed => ⟨.inr ⟨text, htext, hfailed.1⟩, hfailed.2⟩) progress hsilent

theorem code_ofFailure_ne_zero (failure : Failure) : (Ending.ofFailure failure).code ≠ 0 := by
  unfold Ending.ofFailure
  split
  · rename_i report
    cases report.area <;> decide
  · decide
  · decide

theorem shows_quiet {entry : LogEntry} (h : entry.IsQuiet) :
    (LogStyle.ofFlags false false).shows entry = false := by
  rcases h with h | h <;> simp [LogStyle.shows, LogStyle.ofFlags, h, Level.rank]

theorem text_quiet {output : Output} (h : output.IsQuiet) (time : String) :
    output.text (LogStyle.ofFlags false false) time = "" := by
  obtain ⟨entry, rfl, hentry⟩ := h
  rw [Output.text, shows_quiet hentry]
  rfl

theorem shown_document {result : Result} {text : String} {before : List Output}
    (houtputs : result.outputs = before ++ [.document text])
    (hquiet : ∀ output ∈ before, output.IsQuiet)
    (time : Output → String) : result.shown (.ofFlags false false) time = text := by
  have hbefore : String.join (before.map fun output =>
      output.text (.ofFlags false false) (time output)) = "" := by
    clear houtputs
    induction before with
    | nil => rfl
    | cons output rest ih =>
        obtain ⟨houtput, hrest⟩ := List.forall_mem_cons.mp hquiet
        rw [List.map_cons, String.join_cons, text_quiet houtput, ih hrest, String.append_empty]
  rw [Result.shown, houtputs, List.map_append, String.join_append, hbefore]
  simp [Output.text]

/-- The result of a run by what its steps come to. -/
theorem run_cases (surroundings : Surroundings) (arguments : Arguments) :
    (∃ text progress, preparedText surroundings arguments = .ok text ∧
      Delivered surroundings.tree text arguments.outputFile progress ∧
      run surroundings arguments = ⟨0, progress.outputs.reverse, progress.tree⟩) ∨
    ∃ failure progress, IsFailureOf surroundings arguments failure ∧
      Refused surroundings.tree progress ∧
      run surroundings arguments = ⟨(Ending.ofFailure failure).code,
        progress.outputs.reverse ++ (failureEntries failure).map .log, progress.tree⟩ := by
  have hstart : Silent surroundings.tree ⟨surroundings.tree, []⟩ := ⟨rfl, nofun⟩
  have hsteps := ensures_steps surroundings arguments _ hstart
  unfold run
  cases hrun : (steps surroundings arguments).run ⟨surroundings.tree, []⟩ with
  | ok done progress =>
      rw [hrun] at hsteps
      obtain ⟨text, htext, hdelivered⟩ := hsteps
      exact .inl ⟨text, progress, htext, hdelivered, rfl⟩
  | error failure progress =>
      rw [hrun] at hsteps
      exact .inr ⟨failure, progress, hsteps.1, hsteps.2, rfl⟩

/-- If there is no text to deliver, the exit code is that of the failure to prepare it. -/
theorem exitCode_of_error {surroundings : Surroundings} {arguments : Arguments} {failure : Failure}
    (h : preparedText surroundings arguments = .error failure) :
    (run surroundings arguments).exitCode = (Ending.ofFailure failure).code := by
  obtain ⟨text, progress, htext, -, -⟩ | ⟨other, progress, hcause | ⟨text, htext, -⟩, -, hrun⟩ :=
    run_cases surroundings arguments
  · cases htext.symm.trans h
  · cases hcause.symm.trans h
    rw [hrun]
  · cases htext.symm.trans h

/-- If there is a text, the run fails only if the file cannot be written. -/
theorem exitCode_eq_zero {surroundings : Surroundings} {arguments : Arguments} {text : String}
    (h : preparedText surroundings arguments = .ok text)
    (houtput : ∀ path, arguments.outputFile = some path →
      Succeeds (surroundings.tree.save path text.toUTF8.toList)) :
    (run surroundings arguments).exitCode = 0 := by
  obtain ⟨text, progress, -, -, hrun⟩ | ⟨failure, progress, hcause, -, hrun⟩ :=
    run_cases surroundings arguments
  · rw [hrun]
  · obtain hfailed | ⟨other, hother, path, hpath, fault, hfault, -⟩ := hcause
    · cases h.symm.trans hfailed
    · cases h.symm.trans hother
      obtain ⟨reached, hreached⟩ := houtput path hpath
      cases hreached.symm.trans hfault

/-- A run that fails changes no file and puts out no document, whatever step it fails at.  A run
that does not fail has loaded its settings and its record, and the bytes of the document are in the
file that the arguments name, and no other file is changed; or they are all that is shown, unless
the arguments ask for more of the log, and no file is changed. -/
theorem run_delivers_all_or_nothing (surroundings : Surroundings) (arguments : Arguments) :
    ((run surroundings arguments).exitCode ≠ 0 →
      SameFiles surroundings.tree (run surroundings arguments).tree ∧
      ∀ output ∈ (run surroundings arguments).outputs, output.IsLog) ∧
    ((run surroundings arguments).exitCode = 0 → ∃ settings record text,
      loadedSettings surroundings.readers surroundings.tree arguments.configFile = .ok settings ∧
      Record.load surroundings.readers surroundings.tree arguments.recordFile = .ok record ∧
      Converter.fileText ((Converter.ofSettings settings).source surroundings.now
        surroundings.gmlId record) = .ok text ∧
      (∀ path, arguments.outputFile = some path →
        Wrote surroundings.tree path text.toUTF8.toList (run surroundings arguments).tree ∧
        (run surroundings arguments).tree.read path = .ok text.toUTF8.toList) ∧
      (arguments.outputFile = none → (run surroundings arguments).tree = surroundings.tree ∧
        (arguments.debug = false → arguments.verbose = false → ∀ time,
          (run surroundings arguments).shown (.ofFlags arguments.debug arguments.verbose) time =
            text))) := by
  obtain ⟨text, progress, htext, hdelivered, hrun⟩ | ⟨failure, progress, -, hrefused, hrun⟩ :=
    run_cases surroundings arguments
  · obtain ⟨settings, hsettings, hrest⟩ := bind_eq_ok_iff.mp htext
    obtain ⟨record, hrecord, hconverted⟩ := bind_eq_ok_iff.mp hrest
    rw [hrun]
    refine ⟨fun hcode => absurd rfl hcode, fun _ => ⟨settings, record, text, hsettings, hrecord,
      mapError_eq_ok_iff.mp hconverted, ?written, ?putOut⟩⟩
    case written =>
      intro path hpath
      have hwrote := hdelivered.written path hpath
      exact ⟨hwrote, hwrote.read⟩
    case putOut =>
      intro hnone
      obtain ⟨htree, before, houtputs, hquiet⟩ := hdelivered.putOut hnone
      refine ⟨htree, fun hdebug hverbose time => ?_⟩
      have hreversed : ∀ output ∈ before.reverse, output.IsQuiet := fun output houtput =>
        hquiet output (List.mem_reverse.mp houtput)
      rw [hdebug, hverbose, shown_document (by rw [houtputs, List.reverse_cons]) hreversed]
  · rw [hrun]
    refine ⟨fun _ => ⟨hrefused.sameFiles, fun output houtput => ?_⟩,
      fun hcode => absurd hcode (code_ofFailure_ne_zero failure)⟩
    rcases List.mem_append.mp houtput with hbefore | hfailure
    · exact hrefused.logs output (List.mem_reverse.mp hbefore)
    · obtain ⟨entry, -, rfl⟩ := List.mem_map.mp hfailure
      exact ⟨entry, rfl⟩

/-- Surroundings with a record of a title. -/
def sampleSurroundings : Surroundings where
  tree := .ofList [(["coast.json"], .file "\x7b\"title\": [\"Coast\"]\x7d".toUTF8.toList)]
  now := ⟨⟨2000, 1, 1, rfl⟩, .midnight, some .utc⟩
  gmlId n := "id" ++ toString n
  readers := .standard

/-- Arguments to convert a record into a file. -/
def sampleArguments (name : String) : Arguments where
  recordFile := ⟨"", [name]⟩
  outputFile := some ⟨"", ["documents", "coast.xml"]⟩
  configFile := none
  debug := false
  verbose := false

theorem succeeds_preparedText_sample :
    Succeeds (preparedText sampleSurroundings (sampleArguments "coast.json")) := by
  have hconverts : (faultOf? (do
      let record ← Record.load .standard sampleSurroundings.tree ⟨"", ["coast.json"]⟩
      (Profile.assignments ((Converter.ofSettings .default).source sampleSurroundings.now
        sampleSurroundings.gmlId record)).mapError Failure.conversion)).isNone = true := by
    decide +kernel
  obtain ⟨record, hrecord, tracker, htracker⟩ :=
    succeeds_bind.mp (succeeds_of_faultOf? (Option.isNone_iff_eq_none.mp hconverts))
  exact succeeds_preparedText rfl hrecord ⟨tracker, mapError_eq_ok_iff.mp htracker⟩

theorem succeeds_save_sample (bytes : List UInt8) :
    Succeeds (sampleSurroundings.tree.save ⟨"", ["documents", "coast.xml"]⟩ bytes) := by
  have hsaves : (faultOf? (sampleSurroundings.tree.save
      ⟨"", ["documents", "coast.xml"]⟩ bytes)).isNone = true := rfl
  exact succeeds_of_faultOf? (Option.isNone_iff_eq_none.mp hsaves)

theorem sample_run_delivers_all_or_nothing :
    (∃ text : String, Wrote sampleSurroundings.tree ⟨"", ["documents", "coast.xml"]⟩
      text.toUTF8.toList (run sampleSurroundings (sampleArguments "coast.json")).tree) ∧
    SameFiles sampleSurroundings.tree
      (run sampleSurroundings (sampleArguments "sea.json")).tree := by
  constructor
  · obtain ⟨text, htext⟩ := succeeds_preparedText_sample
    have hcode : (run sampleSurroundings (sampleArguments "coast.json")).exitCode = 0 :=
      exitCode_eq_zero htext fun path hpath => Option.some.inj hpath ▸ succeeds_save_sample _
    obtain ⟨-, -, written, -, -, -, hwritten, -⟩ :=
      (run_delivers_all_or_nothing sampleSurroundings (sampleArguments "coast.json")).2 hcode
    exact ⟨written, (hwritten _ rfl).1⟩
  · have hcode : (run sampleSurroundings (sampleArguments "sea.json")).exitCode ≠ 0 := by
      decide +kernel
    exact ((run_delivers_all_or_nothing sampleSurroundings (sampleArguments "sea.json")).1 hcode).1

end CommandLine

end GeoMetadata
