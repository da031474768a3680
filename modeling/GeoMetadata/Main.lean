import Std.Time.DateTime.Timestamp
import GeoMetadata.CommandLine.Run

/-!
# The program

The outer layer of the program: it looks up the files that the arguments name, runs, prints
what is put out, and writes the files that are new or changed.
-/

namespace GeoMetadata.Main

open CommandLine

/-! ## Files -/

/-- The code of the system for a directory where a file is expected. -/
def isDirectoryCode : UInt32 := 21

/-- What the file system has at a path. -/
def probe (path : String) : IO (Option FileEntry) := do
  try
    let bytes ← IO.FS.readBinFile path
    return some (.file bytes.toList)
  catch
    | .inappropriateType _ code _ => return if code = isDirectoryCode then some .directory else none
    | _ => return none

/-- The tree with what the file system has on the way to a path. -/
def addPath (tree : FileTree) (path : FilePath) : IO FileTree := do
  let mut tree := tree
  let mut place := FileTree.start path
  let mut names := []
  for name in path.names do
    place := FileTree.follow place name
    names := names ++ [name]
    if let some entry ← probe (FilePath.text ⟨path.anchor, names⟩) then
      tree := tree.insert place entry
  return tree

/-- The part of the file system that the arguments name. -/
def filesOf (arguments : Arguments) : IO FileTree :=
  ([arguments.recordFile] ++ arguments.configFile.toList ++ arguments.outputFile.toList).foldlM
    addPath .empty

/-- Writes what is new or changed in a tree. -/
def writeChanges (before after : FileTree) : IO Unit :=
  for (place, entry) in after.entries do
    if before.get? place ≠ some entry then
      let path := match place with
        | "/" :: names => FilePath.text ⟨"/", names⟩
        | names => FilePath.text ⟨"", names⟩
      match entry with
      | .directory => IO.FS.createDirAll path
      | .file bytes => IO.FS.writeBinFile path ⟨bytes.toArray⟩

/-! ## Time and ids -/

/-- The microseconds from the first day of year 1 to the first day of 1970. -/
def epoch : Int := 62135596800000000

/-- The present time in UTC. -/
def presentTime : IO Time.DateTime := do
  let nanoseconds := (← Std.Time.Timestamp.now).toNanosecondsSinceUnixEpoch.val
  return (Time.DateTime.ofInstant? (epoch + nanoseconds / 1000)).getD
    ⟨⟨1970, 1, 1, rfl⟩, .midnight, some .utc⟩

/-- The time of a log entry. -/
def logTime (t : Time.DateTime) : String :=
  let clock := t.time
  String.ofList (t.date.display ++ ' ' :: Text.padded 2 clock.hour ++ ':' :: Text.padded 2 clock.minute
    ++ ':' :: Text.padded 2 clock.second ++ ',' :: Text.padded 3 (clock.microsecond / 1000))

/-- A random number below a bound as hexadecimal digits. -/
def randomHex (digits : Nat) (g : StdGen) : List Char × StdGen :=
  let (n, g) := randNat g 0 (Nat.pow 16 digits - 1)
  let text := Nat.toDigits 16 n
  (List.replicate (digits - text.length) '0' ++ text, g)

/-- The random id with a number: five groups of hexadecimal digits, of which the third says that
the id is random. -/
def randomId (seed n : Nat) : String :=
  let (a, g) := randomHex 8 (mkStdGen (seed + n))
  let (b, g) := randomHex 4 g
  let (c, g) := randomHex 3 g
  let (d, g) := randomHex 3 g
  let (e, _) := randomHex 12 g
  "GMLID_" ++ String.ofList (['-'].intercalate [a, b, '4' :: c, 'a' :: d, e])

/-! ## Running -/

/-- Runs the program with its arguments and gives the exit code. -/
def runProgram (argv : List String) : IO UInt32 := do
  match Arguments.read argv with
  | .error stop =>
    if let some complaint := stop.complaint? then (← IO.getStderr).putStrLn complaint
    return UInt32.ofNat stop.exitCode
  | .ok arguments =>
    let tree ← filesOf arguments
    let seed ← IO.rand 0 1000000000
    let result := run ⟨tree, ← presentTime, randomId seed, .standard⟩ arguments
    let style := LogStyle.ofFlags arguments.debug arguments.verbose
    let output ← IO.getStdout
    for part in result.outputs do
      output.putStr (part.text style (logTime (← presentTime)))
    writeChanges tree result.tree
    output.flush
    return UInt32.ofNat result.exitCode

end GeoMetadata.Main

/-- Converts the record file that the arguments name. -/
def main (argv : List String) : IO UInt32 := GeoMetadata.Main.runProgram argv
