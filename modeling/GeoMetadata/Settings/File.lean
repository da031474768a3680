import GeoMetadata.Failure

/-!
# Settings files

A settings file holds a map of settings.  An empty file sets nothing.
-/

namespace GeoMetadata.Settings

/-- The report on settings of a file that are not valid: it is about the first issue. -/
def issueReport (name : String) : List Issue → Report
  | [] => .about .settings ("Invalid settings in " ++ name ++ ": ") none
  | issue :: _ =>
    .about .settings ("Invalid settings in " ++ name ++ ": " ++ issue.complaint.message)
      (some issue.placeText)

/-- The settings of a file. -/
def load (readers : Readers) (tree : FileTree) (path : FilePath) : Except Failure Settings :=
  let valid (checked : Checked Settings) : Except Failure Settings :=
    checked.mapError fun issues => .reported (issueReport path.name issues)
  match StructuredFile.load readers tree path with
  | .error fault => .error (.ofFile .settings none fault)
  | .ok .null => valid (ofEntries [])
  | .ok (.map entries) => valid (ofEntries entries)
  | .ok _ => .error (.reported (.about .settings "Top-level settings object must be a mapping" none))

end GeoMetadata.Settings
