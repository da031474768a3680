import GeoMetadata.Converter
import GeoMetadata.Files.StructuredFile
import GeoMetadata.Record.Loading
import GeoMetadata.Report

/-!
# Failures

Everything that can go wrong between a record file and its document.  What concerns the
record, the settings or the form of the document is reported; other failures are those of the
system, of the bytes of a file, and of values that have no number, date or XML form.
-/

namespace GeoMetadata

/-- Why something failed. -/
inductive Failure where
  | reported (report : Report)
  | file (fault : FileFault)
  | undecodable (fault : Text.Utf8.Fault)
  /-- An integer cannot be read or written. -/
  | integer (fault : Number.IntegerFault)
  /-- Something in the text of a file has no value. -/
  | scalar (fault : Yaml.Fault)
  | conversion (fault : Profile.ConversionFault)
  | xml (fault : Xml.BuildFault)

namespace Failure

/-- What is said about a failure. -/
def message : Failure → String
  | reported report => match report.text with
    | .ok text => text
    | .error fault => fault.message
  | file fault => fault.message
  | undecodable fault => fault.message
  | integer fault => fault.message
  | scalar fault => fault.message
  | conversion fault => fault.message
  | xml fault => fault.message

/-- The report of a failure that is reported. -/
def report? : Failure → Option Report
  | reported report => some report
  | _ => none

/-- The failure is reported in the area. -/
def IsReportOf (area : Area) (failure : Failure) : Prop :=
  ∃ report, failure = .reported report ∧ report.area = area

theorem isReportOf_about (area : Area) (message : String) (subject : Option String) :
    (Failure.reported (.about area message subject)).IsReportOf area := ⟨_, rfl, rfl⟩

/-! ## Files -/

/-- The failure to load a file. Files that are missing, have no format or are malformed are
reported in an area. -/
def ofFile (area : Area) (subject : Option String) (fault : StructuredFile.Fault) : Failure :=
  match fault with
  | .unreadable fault => .file fault
  | .undecodable fault => .undecodable fault
  | .content _ (.json (.integer fault)) => .integer fault
  | .content _ (.yaml (.malformed _)) => .reported (.about area fault.message subject)
  | .content _ (.yaml fault) => .scalar fault
  | fault => .reported (.about area fault.message subject)

/-- The failure to make a record of data, which may come from a file. -/
def ofData (file : Option String) (fault : Record.DataFault) : Failure :=
  .reported (.about .record fault.message file)

/-! ## Documents -/

/-- The failure to assemble a document. -/
def ofAssembly : Document.AssemblyFault → Failure
  | .path path (.form fault) => .reported (.about .path fault.message (some path))
  | .path _ (.integer fault) => .integer fault
  | .elsewhere path root =>
    .reported (.about .document ("Path does not start at root element '" ++ root ++ "'")
      (some path))

/-- The failure to build the elements of a document. -/
def ofBuild : Xml.BuildFault → Failure
  | .undeclaredPrefix declared name =>
    .reported (.about .document (Xml.BuildFault.undeclaredPrefix declared name).message (some name))
  | fault => .xml fault

/-- The failure to convert a record. -/
def ofConverter : Converter.Fault → Failure
  | .conversion fault => .conversion fault
  | .assembly fault => ofAssembly fault
  | .build fault => ofBuild fault

/-- The failure to read the path of a document. -/
def ofPath (path : String) : Path.Fault → Failure
  | .form fault => .reported (.about .path fault.message (some path))
  | .integer fault => .integer fault

end Failure

end GeoMetadata
