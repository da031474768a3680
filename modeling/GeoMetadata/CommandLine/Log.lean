import GeoMetadata.Failure
import GeoMetadata.Files.FilePath
import GeoMetadata.Profile.Conversion

/-!
# The log

What happens in the course of a run is logged, each entry under the name of the part of the
program it comes from.  How much of the log is shown, and in which form, depends on the
arguments: by default only warnings and errors are shown, without time and name.
-/

namespace GeoMetadata.CommandLine

/-- The weights of log entries. -/
inductive Level where
  | debug
  | info
  | warning
  | error
  deriving DecidableEq, Repr

namespace Level

/-- The name of a level. -/
def name : Level → String
  | debug => "DEBUG"
  | info => "INFO"
  | warning => "WARNING"
  | error => "ERROR"

/-- The rank of a level. -/
def rank : Level → Nat
  | debug => 0
  | info => 1
  | warning => 2
  | error => 3

end Level

/-- An entry of the log. -/
structure LogEntry where
  level : Level
  /-- The part of the program that the entry comes from. -/
  source : String
  message : String
  deriving DecidableEq, Repr

/-- How the log is shown: from which level on, and with times and names or not. -/
structure LogStyle where
  least : Level
  isDetailed : Bool
  deriving DecidableEq, Repr

namespace LogStyle

/-- The style that the arguments ask for. -/
def ofFlags (debug verbose : Bool) : LogStyle :=
  if debug then ⟨.debug, true⟩ else if verbose then ⟨.info, true⟩ else ⟨.warning, false⟩

/-- The entry is shown. -/
def shows (style : LogStyle) (entry : LogEntry) : Bool := style.least.rank ≤ entry.level.rank

/-- The line of an entry that is made at a time. -/
def line (style : LogStyle) (time : String) (entry : LogEntry) : String :=
  if style.isDetailed then
    time ++ " - " ++ entry.source ++ " - " ++ entry.level.name ++ " - " ++ entry.message ++ "\n"
  else entry.level.name ++ ": " ++ entry.message ++ "\n"

end LogStyle

/-! ## The entries -/

namespace LogEntry

/-- An entry of the program itself. -/
def main (level : Level) (message : String) : LogEntry := ⟨level, "mgmp_converter.main", message⟩

/-- An entry on the course of a conversion. -/
def conversion (level : Level) (message : String) : LogEntry :=
  ⟨level, "mgmp_converter.core.common.base_converter.MgmpConverter", message⟩

/-- A file was looked for in vain. -/
def fileMissing (path : FilePath) : LogEntry :=
  ⟨.error, "mgmp_converter.io.file_loader", "File not found: " ++ path.text⟩

/-- Settings were loaded. -/
def settingsLoaded (path : FilePath) : LogEntry :=
  ⟨.debug, "mgmp_converter.models.settings", "Loaded converter settings from " ++ path.text⟩

/-- A record was loaded. -/
def recordLoaded (record : Record) : LogEntry :=
  ⟨.debug, "mgmp_converter.io.record_loader",
    "Record file loaded (" ++ toString record.attributes.size ++ " attributes)"⟩

/-- An entry of a security mapping was read. Empty entries are passed over in silence. -/
def ofMapping? (entry : String) : Option LogEntry :=
  if entry = "" then none
  else
    let message := match SecurityMapping.pairOf? entry with
      | some (code, value) => "Adding mapping : " ++ code ++ " = " ++ value
      | none => "Unable to split string " ++ entry
    some ⟨.debug, "mgmp_converter.plugins.mgmp.classification", message⟩

/-- The report of a location that cannot be read. -/
def locationReport (text : String) : Report :=
  .about .geometry "Unable to parse WKT" (some text)

/-- Something was passed over. -/
def ofRemark : Profile.Remark → LogEntry
  | .unreadableLocation text =>
    conversion .debug ("unable to set location: wkt=" ++ text ++ ": "
      ++ (Failure.reported (locationReport text)).message)
  | .unpairedExtents starts ends =>
    ⟨.debug, "mgmp_converter.plugins.mgmp.derivations",
      "Skipping temporal extents: " ++ toString starts ++ " start(s), " ++ toString ends
        ++ " end(s)"⟩

/-- Something happened in the course of a conversion. -/
def ofEvent : Profile.Event → LogEntry
  | .remark remark => ofRemark remark
  | .sectionDone name added =>
    ⟨.debug, "mgmp_converter.core.pipeline.MappingPipeline",
      "Step '" ++ name ++ "' wrote " ++ toString added ++ " new path(s)"⟩

/-- A document was assembled. -/
def assembled (count : Nat) : LogEntry :=
  ⟨.debug, "mgmp_converter.core.assembler.DocumentAssembler",
    "Assembled document from " ++ toString count ++ " assignments"⟩

/-- Characters of a text were dropped, if there were any to drop. -/
def dropped? (text : String) : Option LogEntry :=
  match Xml.droppedCount text with
  | 0 => none
  | count => some ⟨.debug, "mgmp_converter.models.document",
      "Dropped " ++ toString count ++ " character(s) not allowed in XML"⟩

end LogEntry

mutual

/-- The texts of a document tree that stand in its XML: of each node the attributes and then
the text, before those of its children. -/
def shownTexts : Node → List String
  | ⟨name, index, text, attributes, children⟩ =>
    (Node.mk name index text attributes []).plainAttributes.map Prod.snd ++ text.toList
      ++ allShownTexts children

/-- The texts of some document trees. -/
def allShownTexts : List Node → List String
  | [] => []
  | node :: rest => shownTexts node ++ allShownTexts rest

end

/-- The entries on the characters that a document loses in XML. -/
def droppedEntries (document : Node) : List LogEntry :=
  (shownTexts document).filterMap LogEntry.dropped?

end GeoMetadata.CommandLine
