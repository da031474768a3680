import GeoMetadata.Failure

/-!
# Record files

A record file holds the data of a record.
-/

namespace GeoMetadata.Record

/-- The record of a file. -/
def load (readers : Readers) (tree : FileTree) (path : FilePath) : Except Failure Record :=
  let file := some path.text
  match StructuredFile.load readers tree path with
  | .error fault => .error (.ofFile .record file fault)
  | .ok (.map entries) => (ofData readers.moment entries).mapError (.ofData file)
  | .ok _ => .error (.reported (.about .record "Top-level object must be a mapping" file))

end GeoMetadata.Record
