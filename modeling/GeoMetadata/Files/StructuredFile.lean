import GeoMetadata.Files.FileTree
import GeoMetadata.Readers
import GeoMetadata.Text.Case
import GeoMetadata.Text.Utf8

/-!
# Structured files

A structured file holds a value in JSON or YAML, and its suffix says in which.  It is looked
for before its suffix is looked at, and read only after that.
-/

namespace GeoMetadata.StructuredFile

open Text

/-- The formats of structured files. -/
inductive Format where
  | json
  | yaml
  deriving DecidableEq, Repr

/-- The suffixes of the formats, in order. -/
def formatSuffixes : List (String × Format) :=
  [(".json", .json), (".yaml", .yaml), (".yml", .yaml)]

/-- The format of a path, by its suffix in any case. -/
def formatOf? (path : FilePath) : Option Format := entryValue? (lower path.suffix) formatSuffixes

/-- What is wrong with the content of a file. -/
inductive ContentFault where
  | json (fault : Json.Fault)
  | yaml (fault : Yaml.Fault)
  deriving DecidableEq, Repr

/-- Why a file gives no value. -/
inductive Fault where
  | missing (path : FilePath)
  | unsupported (suffix : String)
  /-- The system refuses to read the file. -/
  | unreadable (fault : FileFault)
  /-- The bytes are no text. -/
  | undecodable (fault : Utf8.Fault)
  /-- The text has no value. -/
  | content (name : String) (fault : ContentFault)
  deriving DecidableEq, Repr

/-- What is said about the content of a file. -/
def ContentFault.message : ContentFault → String
  | .json fault => fault.message
  | .yaml fault => fault.message

/-- The text has the wrong form. Otherwise something in it has no value. -/
def ContentFault.isMalformed : ContentFault → Bool
  | .json (.complaint ..) => true
  | .yaml (.malformed _) => true
  | _ => false

/-- What is said about a file without value. -/
def Fault.message : Fault → String
  | .missing path => "File not found: " ++ path.text
  | .unsupported suffix =>
    "Unsupported extension '" ++ suffix ++ "'. Supported: "
      ++ String.intercalate ", " (formatSuffixes.map Prod.fst)
  | .unreadable fault => fault.message
  | .undecodable fault => fault.message
  | .content name fault =>
    if fault.isMalformed then "Cannot parse " ++ name ++ ": " ++ fault.message
    else fault.message

variable (readers : Readers)

/-- The value of a text. -/
def readText (format : Format) (text : List Char) : Except ContentFault Value :=
  match format with
  | .json => (readers.json text).mapError .json
  | .yaml => (readers.yaml text).mapError .yaml

/-- The value of a file. -/
def load (tree : FileTree) (path : FilePath) : Except Fault Value :=
  if !tree.exists? path then .error (.missing path)
  else match formatOf? path with
    | none => .error (.unsupported path.suffix)
    | some format => do
      let bytes ← (tree.read path).mapError .unreadable
      let text ← (Utf8.decode bytes).mapError .undecodable
      (readText readers format (Utf8.breakLines text)).mapError (.content path.name)

end GeoMetadata.StructuredFile
