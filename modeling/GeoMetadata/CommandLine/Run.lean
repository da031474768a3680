import GeoMetadata.CommandLine.Arguments
import GeoMetadata.CommandLine.Log
import GeoMetadata.Record.File
import GeoMetadata.Settings.File

/-!
# Running the program

A run loads the settings and the record, converts the record, and puts out its document or
writes it to a file.  It is a function of the files, of the present time, of the ids and of the
readers of texts: it gives the exit code, what is put out, and the files afterwards.
-/

namespace GeoMetadata.CommandLine

/-- Something that is put out. -/
inductive Output where
  | log (entry : LogEntry)
  | document (text : String)
  deriving DecidableEq, Repr

/-- The surroundings of a run. -/
structure Surroundings where
  tree : FileTree
  now : Time.DateTime
  gmlId : Nat → String
  readers : Readers

/-- What a run has come to: the files, and what has been put out, the last first. -/
structure Progress where
  tree : FileTree
  outputs : List Output

/-- The steps of a run. What was put out before a failure stays. -/
abbrev Step := EStateM Failure Progress

/-- Puts something out. -/
def put (output : Output) : Step Unit :=
  modify fun progress => { progress with outputs := output :: progress.outputs }

/-- Logs an entry. -/
def log (entry : LogEntry) : Step Unit := put (.log entry)

/-- Changes the files. What was changed before a failure stays. -/
def change (change : FileTree.Change Unit) : Step Unit := fun progress =>
  match change.run progress.tree with
  | .ok _ tree => .ok () { progress with tree := tree }
  | .error fault tree => .error (.file fault) { progress with tree := tree }

/-- Goes on with a result, or fails. -/
def expect {α : Type} : Except Failure α → Step α
  | .ok a => pure a
  | .error failure => throw failure

/-! ## Loading -/

/-- Logs that a file is missing, if it is. -/
def noteMissing (path : FilePath) : Step Unit := do
  if !(← get).tree.exists? path then log (.fileMissing path)

/-- The settings to convert with. -/
def settings (readers : Readers) : Option FilePath → Step Settings
  | none => pure .default
  | some path => do
    noteMissing path
    let settings ← expect (Settings.load readers (← get).tree path)
    log (.settingsLoaded path)
    pure settings

/-- The record to convert. -/
def record (readers : Readers) (path : FilePath) : Step Record := do
  noteMissing path
  let record ← expect (Record.load readers (← get).tree path)
  log (.recordLoaded record)
  pure record

/-! ## Converting -/

/-- The assignments of a record. -/
def assignments (source : Profile.Source) : Step Assignments := do
  let (draft, fault) := Profile.run source
  for event in draft.events.reverse do
    log (.ofEvent event)
  match fault with
  | none => pure draft.assignments
  | some fault => throw (.conversion fault)

/-- The text of the document of a record. -/
def documentText (surroundings : Surroundings) (settings : Settings) (record : Record) :
    Step String := do
  for entry in settings.securityMappingList do
    if let some entry := LogEntry.ofMapping? entry then log entry
  log (.conversion .info "Starting record conversion.")
  let source := (Converter.ofSettings settings).source surroundings.now surroundings.gmlId record
  let assignments ← assignments source
  let document ← expect ((Converter.assemble assignments).mapError .ofConverter)
  log (.assembled assignments.size)
  log (.conversion .info
    ("Record conversion completed (" ++ toString assignments.size ++ " paths)."))
  let element ← expect ((Converter.element document).mapError .ofConverter)
  for entry in droppedEntries document do
    log entry
  pure (element.toFileText true)

/-! ## The result -/

/-- Writes a document to a file, or puts it out. -/
def deliver (text : String) : Option FilePath → Step Unit
  | none => put (.document text)
  | some path => do
    change (FileTree.store path text.toUTF8.toList)
    log (.main .info ("MGMP document saved to: " ++ path.text))

/-- All steps of a run. -/
def steps (surroundings : Surroundings) (arguments : Arguments) : Step Unit := do
  let settings ← settings surroundings.readers arguments.configFile
  let record ← record surroundings.readers arguments.recordFile
  let text ← documentText surroundings settings record
  deliver text arguments.outputFile

/-- How a failure ends a run: with an exit code, and a heading for what is said about it. -/
structure Ending where
  code : Nat
  heading : String
  deriving DecidableEq, Repr

/-- The ending of a failure that is reported in an area. -/
def Ending.ofArea : Area → Ending
  | .record => ⟨1, "Record load error"⟩
  | .settings => ⟨2, "Configuration error"⟩
  | .document => ⟨3, "Document assembly error"⟩
  | .path => ⟨3, "Document assembly error"⟩
  | .geometry => ⟨4, "Converter error"⟩
  | .general => ⟨4, "Converter error"⟩

/-- The ending of a failure. -/
def Ending.ofFailure : Failure → Ending
  | .reported report => .ofArea report.area
  | .file _ => ⟨5, "File system error"⟩
  | _ => ⟨9, "Unexpected error"⟩

/-- The entries on a failure: what failed, and what can be done about it. -/
def failureEntries (failure : Failure) : List LogEntry :=
  .main .error ((Ending.ofFailure failure).heading ++ ": " ++ failure.message)
    :: ((failure.report?.bind Report.hint?).map fun hint =>
      .main .info ("Suggestion: " ++ hint)).toList

/-- What a run has come to at its end. -/
structure Result where
  exitCode : Nat
  outputs : List Output
  tree : FileTree

/-- Runs the program. -/
def run (surroundings : Surroundings) (arguments : Arguments) : Result :=
  match (steps surroundings arguments).run ⟨surroundings.tree, []⟩ with
  | .ok _ progress => ⟨0, progress.outputs.reverse, progress.tree⟩
  | .error failure progress =>
    ⟨(Ending.ofFailure failure).code,
      progress.outputs.reverse ++ (failureEntries failure).map .log, progress.tree⟩

/-- The text of what is put out, with the same time in all entries. -/
def Output.text (style : LogStyle) (time : String) : Output → String
  | .log entry => if style.shows entry then style.line time entry else ""
  | .document text => text

/-- The exit code if there are no arguments to go on with. -/
def Stop.exitCode : Stop → Nat
  | .help => 0
  | .fault _ => 2

/-- The last line about arguments at fault. -/
def Stop.complaint? : Stop → Option String
  | .help => none
  | .fault found => some ("mgmp-convert: error: " ++ found.message)

end GeoMetadata.CommandLine
