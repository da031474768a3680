import GeoMetadata.Files.FilePath
import GeoMetadata.OrderedMap
import GeoMetadata.Text.Digits
import GeoMetadata.Text.Quoted
import GeoMetadata.Text.Search

/-!
# Arguments of the command line

The arguments name a record file, and options say where to write the document, where the
settings are and how much to log.  A long option may be cut short as long as it stays
unambiguous, and short options may be run together.  After a separator nothing is an option.
The arguments are first told apart one by one, and then read in order.
-/

namespace GeoMetadata.CommandLine

open Text

/-- What the arguments ask for. -/
structure Arguments where
  recordFile : FilePath
  outputFile : Option FilePath
  configFile : Option FilePath
  debug : Bool
  verbose : Bool
  deriving DecidableEq, Repr

/-- The options. -/
inductive Switch where
  | help
  | output
  | config
  | debug
  | verbose
  deriving DecidableEq, Repr

/-- The spellings of the options, in order. -/
def spellings : List (String × Switch) :=
  [("-h", .help), ("--help", .help), ("-o", .output), ("--output", .output), ("-c", .config),
    ("--config", .config), ("--debug", .debug), ("-v", .verbose), ("--verbose", .verbose)]

namespace Switch

/-- The option has a value. -/
def takesValue : Switch → Bool
  | output => true
  | config => true
  | _ => false

/-- All spellings of an option. -/
def label (switch : Switch) : String :=
  String.intercalate "/" ((spellings.filter fun entry => entry.2 = switch).map Prod.fst)

end Switch

/-- What is wrong with the arguments. -/
inductive ArgumentFault where
  | ambiguous (argument : String) (candidates : List String)
  | noValue (switch : Switch)
  | unusedValue (switch : Switch) (text : String)
  | noRecord
  | unknown (arguments : List String)
  deriving DecidableEq, Repr

/-- What is said about the arguments. -/
def ArgumentFault.message : ArgumentFault → String
  | .ambiguous argument candidates =>
    "ambiguous option: " ++ argument ++ " could match " ++ String.intercalate ", " candidates
  | .noValue switch => "argument " ++ switch.label ++ ": expected one argument"
  | .unusedValue switch text =>
    "argument " ++ switch.label ++ ": ignored explicit argument " ++ quoted text
  | .noRecord => "the following arguments are required: record_file"
  | .unknown arguments => "unrecognized arguments: " ++ String.intercalate " " arguments

/-- Why there are no arguments to go on with: help is asked for, or they are at fault. -/
inductive Stop where
  | help
  | fault (fault : ArgumentFault)
  deriving DecidableEq, Repr

/-! ## Telling arguments apart -/

/-- A text that is attached to an option, by an equals sign or directly. -/
structure Attached where
  byEquals : Bool
  text : List Char
  deriving DecidableEq, Repr

/-- An argument. -/
inductive Argument where
  | plain (text : String)
  /-- Nothing after this is an option. -/
  | separator
  | option (switch : Switch) (isShort : Bool) (attached : Option Attached)
  | unknown (text : String)
  deriving DecidableEq, Repr

/-- A number with a minus sign. It may end with a line break. -/
def isNegativeNumber (text : List Char) : Bool :=
  let isDecimal (c : Char) : Bool := (digitValue? c).isSome
  let body := if text.getLast? = some '\n' then text.dropLast else text
  match body with
  | '-' :: rest =>
    let (whole, after) := rest.span isDecimal
    match after with
    | [] => whole ≠ []
    | '.' :: fraction => fraction ≠ [] && fraction.all isDecimal
    | _ => false
  | _ => false

/-- The long options that an argument may be short for. -/
def candidates (start : List Char) : List (String × Switch) :=
  spellings.filter fun entry => start.isPrefixOf entry.1.toList

/-- An argument that starts with two hyphens and is no option as it stands. -/
def longOption? (text : String) : Except ArgumentFault (Option Argument) :=
  let (start, value) := cutAt '=' text.toList
  match candidates start with
  | [] => .ok none
  | [(_, switch)] => .ok (some (.option switch false (value.map (⟨true, ·⟩))))
  | several => .error (.ambiguous text (several.map Prod.fst))

/-- An argument that starts with one hyphen and a letter. -/
def shortOption? (text : List Char) : Option Argument :=
  (entryValue? (String.ofList (text.take 2)) spellings).map fun switch =>
    .option switch true (some ⟨false, text.drop 2⟩)

/-- An argument that is no option. -/
def strange (text : String) : Argument :=
  if isNegativeNumber text.toList || text.toList.contains ' ' then .plain text else .unknown text

/-- The spelling is that of a short option. -/
def isShortSpelling (text : List Char) : Bool := text.length = 2

/-- An option with a value after an equals sign. -/
def assignedOption? (text : String) : Option Argument :=
  match cutAt '=' text.toList with
  | (name, some value) =>
    (entryValue? (String.ofList name) spellings).map fun switch =>
      .option switch (isShortSpelling name) (some ⟨true, value⟩)
  | _ => none

/-- Tells what an argument before the separator is. -/
def classify (text : String) : Except ArgumentFault Argument :=
  match text.toList with
  | '-' :: c :: _ =>
    match entryValue? text spellings, assignedOption? text with
    | some switch, _ => .ok (.option switch (isShortSpelling text.toList) none)
    | none, some option => .ok option
    | none, none =>
      if c = '-' then (longOption? text).map fun found => found.getD (strange text)
      else .ok ((shortOption? text.toList).getD (strange text))
  | _ => .ok (.plain text)

/-- Tells all arguments apart. -/
def classifyAll : List String → Except ArgumentFault (List Argument)
  | [] => .ok []
  | text :: rest =>
    if text = "--" then .ok (.separator :: rest.map .plain)
    else do .ok ((← classify text) :: (← classifyAll rest))

/-! ## Options run together -/

/-- What an argument of options comes to: the options with their values in order, the option
that waits for a value, and what is no option. -/
structure Cluster where
  settled : List (Switch × String)
  waiting : Option Switch
  unknown : List String
  deriving DecidableEq, Repr

/-- The cluster with one more option in front. -/
def Cluster.cons (switch : Switch) (cluster : Cluster) : Cluster :=
  { cluster with settled := (switch, "") :: cluster.settled }

/-- The cluster of an option without anything attached. -/
def bareCluster (switch : Switch) : Cluster :=
  if switch.takesValue then ⟨[], some switch, []⟩ else ⟨[(switch, "")], none, []⟩

/-- The cluster of an option with something attached. What is attached to a short option
without value is the next short option. -/
def attachedCluster (switch : Switch) (isShort byEquals : Bool) :
    List Char → Except ArgumentFault Cluster
  | [] =>
    if switch.takesValue then .ok ⟨[(switch, "")], none, []⟩ else .error (.unusedValue switch "")
  | c :: rest =>
    if switch.takesValue then .ok ⟨[(switch, String.ofList (c :: rest))], none, []⟩
    else if !isShort || byEquals || c = '-' then
      .error (.unusedValue switch (String.ofList (c :: rest)))
    else match entryValue? (String.ofList ['-', c]) spellings with
      | none => .ok ⟨[(switch, "")], none, [String.ofList ('-' :: c :: rest)]⟩
      | some next => do
        let cluster ← match rest with
          | [] => .ok (bareCluster next)
          | '=' :: value => attachedCluster next true true value
          | d :: more => attachedCluster next true false (d :: more)
        .ok (cluster.cons switch)

/-- The cluster of an option. -/
def cluster (switch : Switch) (isShort : Bool) : Option Attached → Except ArgumentFault Cluster
  | none => .ok (bareCluster switch)
  | some attached => attachedCluster switch isShort attached.byEquals attached.text

/-! ## Reading arguments in order -/

/-- What has been read so far. -/
structure Draft where
  recordFile : Option String
  outputFile : Option String
  configFile : Option String
  debug : Bool
  verbose : Bool
  /-- What is left over, the last first. -/
  extras : List String
  deriving DecidableEq, Repr

namespace Draft

/-- Nothing has been read. -/
def empty : Draft := ⟨none, none, none, false, false, []⟩

/-- The draft with an option and its value. -/
def set (draft : Draft) (switch : Switch) (value : String) : Except Stop Draft :=
  match switch with
  | .help => .error .help
  | .output => .ok { draft with outputFile := some value }
  | .config => .ok { draft with configFile := some value }
  | .debug => .ok { draft with debug := true }
  | .verbose => .ok { draft with verbose := true }

/-- The draft with some options and their values. -/
def setAll (draft : Draft) (options : List (Switch × String)) : Except Stop Draft :=
  options.foldlM (fun draft (switch, value) => draft.set switch value) draft

/-- The draft with something left over. -/
def leave (draft : Draft) (texts : List String) : Draft :=
  { draft with extras := texts.reverse ++ draft.extras }

/-- The draft with a plain argument: the first is the record file. -/
def addPlain (draft : Draft) (text : String) : Draft :=
  if draft.recordFile.isNone then { draft with recordFile := some text } else draft.leave [text]

/-- The arguments that a draft comes to. -/
def finish (draft : Draft) : Except Stop Arguments :=
  match draft.recordFile, draft.extras with
  | none, _ => .error (.fault .noRecord)
  | some record, [] =>
    .ok ⟨.ofText record, draft.outputFile.map .ofText, draft.configFile.map .ofText, draft.debug,
      draft.verbose⟩
  | some _, extras => .error (.fault (.unknown extras.reverse))

end Draft

/-- The separator is passed over right before and right after the record file, and is left
over elsewhere. -/
def isAbsorbed (draft : Draft) (afterRecord : Bool) (rest : List Argument) : Bool :=
  if draft.recordFile.isNone then !rest.isEmpty else afterRecord

/-- Reads arguments in order. `afterRecord` says that the record file comes right before. -/
def readFrom (draft : Draft) (afterRecord : Bool) : List Argument → Except Stop Draft
  | [] => .ok draft
  | .plain text :: rest => readFrom (draft.addPlain text) draft.recordFile.isNone rest
  | .separator :: rest =>
    if isAbsorbed draft afterRecord rest then readFrom draft false rest
    else readFrom (draft.leave ["--"]) false rest
  | .unknown text :: rest => readFrom (draft.leave [text]) false rest
  | .option switch isShort attached :: rest =>
    match cluster switch isShort attached with
    | .error fault => .error (.fault fault)
    | .ok ⟨settled, none, unknown⟩ => do
      readFrom (← (draft.leave unknown).setAll settled) false rest
    | .ok ⟨settled, some waiting, unknown⟩ =>
      match rest with
      | .plain value :: rest => do
        let draft ← (draft.leave unknown).setAll (settled ++ [(waiting, value)])
        readFrom draft false rest
      | _ => .error (.fault (.noValue waiting))

/-- Reads the arguments of the command line. -/
def Arguments.read (texts : List String) : Except Stop Arguments :=
  match classifyAll texts with
  | .error fault => .error (.fault fault)
  | .ok arguments => (readFrom .empty false arguments).bind Draft.finish

end GeoMetadata.CommandLine
