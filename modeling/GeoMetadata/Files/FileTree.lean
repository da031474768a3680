import GeoMetadata.Files.FilePath
import GeoMetadata.OrderedMap
import GeoMetadata.Text.Quoted

/-!
# Trees of files

A tree of files maps the places of files and directories, which are lists of names, to what is
there.  The current directory is the empty place, the directories above it are places of two points
each, and the root of the file system is the place of one slash.
-/

namespace GeoMetadata

/-- What is at a place. -/
inductive FileEntry where
  | directory
  | file (bytes : List UInt8)
  deriving DecidableEq, Repr

/-- The files and directories by their places. -/
abbrev FileTree := OrderedMap (List String) FileEntry

/-- Why the system refuses to do something with a path. -/
inductive FileFault where
  | missing (path : FilePath)
  | exists (path : FilePath)
  | notDirectory (path : FilePath)
  | isDirectory (path : FilePath)
  deriving DecidableEq, Repr

/-- What the system says when it refuses. -/
def FileFault.message : FileFault → String
  | .missing path => "[Errno 2] No such file or directory: " ++ Text.quoted path.text
  | .exists path => "[Errno 17] File exists: " ++ Text.quoted path.text
  | .notDirectory path => "[Errno 20] Not a directory: " ++ Text.quoted path.text
  | .isDirectory path => "[Errno 21] Is a directory: " ++ Text.quoted path.text

namespace FileTree

/-! ## Places -/

/-- The place of the directory above. The root is its own, and above the current directory there are
only directories. -/
def above (place : List String) : List String :=
  if place = ["/"] then place
  else if place.all (· = "..") then ".." :: place
  else place.dropLast

/-- The place that a name leads to from a directory. -/
def follow (place : List String) (name : String) : List String :=
  if name = ".." then above place else place ++ [name]

/-- The place that a path starts from. -/
def start (path : FilePath) : List String := if path.anchor = "" then [] else ["/"]

/-- A directory is at the place in any case: it is the root, the current directory, or above it. -/
def isGiven (place : List String) : Bool := place.all (· = "..") || place = ["/"]

/-- What is at a place. -/
def entryAt? (tree : FileTree) (place : List String) : Option FileEntry :=
  if isGiven place then some .directory else tree.get? place

/-! ## Paths -/

/-- Where a path leads. -/
inductive Walk where
  /-- There is something at the place. -/
  | found (place : List String) (entry : FileEntry)
  /-- There is nothing, but the directory is there. -/
  | free (place : List String)
  /-- The directory is not there. -/
  | lost
  /-- A file stands in the place of a directory. -/
  | blocked
  deriving DecidableEq, Repr

/-- Follows names from what is at a place. -/
def walkFrom (tree : FileTree) (place : List String) (entry : FileEntry) : List String → Walk
  | [] => .found place entry
  | name :: rest =>
    match entry with
    | .file _ => .blocked
    | .directory =>
      if name = ".." then walkFrom tree (above place) .directory rest
      else match tree.entryAt? (place ++ [name]) with
        | some found => walkFrom tree (place ++ [name]) found rest
        | none => if rest = [] then .free (place ++ [name]) else .lost

/-- Follows a path. -/
def walk (tree : FileTree) (path : FilePath) : Walk :=
  tree.walkFrom (start path) .directory path.names

/-- Something is where the path leads. -/
def exists? (tree : FileTree) (path : FilePath) : Bool :=
  match tree.walk path with
  | .found .. => true
  | _ => false

/-- The bytes of the file where a path leads. -/
def read (tree : FileTree) (path : FilePath) : Except FileFault (List UInt8) :=
  match tree.walk path with
  | .found _ (.file bytes) => .ok bytes
  | .found _ .directory => .error (.isDirectory path)
  | .blocked => .error (.notDirectory path)
  | _ => .error (.missing path)

/-! ## Changes -/

/-- A change of a tree in steps. What was changed before the system refuses a step stays. -/
abbrev Change := EStateM FileFault FileTree

/-- Makes a directory where a path leads, unless there is one. -/
def addDirectory (path : FilePath) : Change Unit := do
  match (← get).walk path with
  | .found _ .directory => pure ()
  | .found _ (.file _) => throw (.exists path)
  | .free place => modify (·.insert place .directory)
  | .blocked => throw (.notDirectory path)
  | .lost => throw (.missing path)

/-- Makes a directory where a path leads, and the directories above it that are not there. The
names of the path are given from the last to the first. -/
def addDirectories (anchor : String) : (reversed : List String) → Change Unit
  | [] => pure ()
  | name :: above => do
    let path : FilePath := ⟨anchor, (name :: above).reverse⟩
    if (← get).walk path = .lost then addDirectories anchor above
    addDirectory path

/-- Writes a file where a path leads. -/
def addFile (path : FilePath) (bytes : List UInt8) : Change Unit := do
  match (← get).walk path with
  | .found place (.file _) => modify (·.insert place (.file bytes))
  | .free place => modify (·.insert place (.file bytes))
  | .found _ .directory => throw (.isDirectory path)
  | .blocked => throw (.notDirectory path)
  | .lost => throw (.missing path)

/-- Writes a file where a path leads, and makes the directories above it. -/
def store (path : FilePath) (bytes : List UInt8) : Change Unit := do
  addDirectories path.anchor path.parent.names.reverse
  addFile path bytes

/-- The tree after a change, unless the system refuses a step. -/
def changed (tree : FileTree) (change : Change Unit) : Except FileFault FileTree :=
  match change.run tree with
  | .ok _ reached => .ok reached
  | .error fault _ => .error fault

/-- The tree with a directory where a path leads, and with the directories above it. -/
def makeDirectory (tree : FileTree) (anchor : String) (reversed : List String) :
    Except FileFault FileTree := tree.changed (addDirectories anchor reversed)

/-- The tree with a file and the directories above it. -/
def save (tree : FileTree) (path : FilePath) (bytes : List UInt8) : Except FileFault FileTree :=
  tree.changed (store path bytes)

end FileTree

end GeoMetadata
