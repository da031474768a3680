import GeoMetadata.Number.Integer
import GeoMetadata.Number.Numeral
import GeoMetadata.Text.Blank
import GeoMetadata.Text.Case
import GeoMetadata.Text.Search
import GeoMetadata.Yaml.Node
import GeoMetadata.Yaml.Timestamp

/-!
# The values of YAML

A scalar with a tag of the core schema is what the tag says.  A plain scalar without a tag is
a truth value, a number, nothing, or a timestamp if it has the form of one, and any other
scalar is a text.  The keys of a mapping are different, but the entries of mappings that are
merged into it count only where it has no entry of its own.

This is the part of YAML that files of records and settings are written in.  A text with
directives, with binary data, sets, ordered maps or pairs, or with a node that holds an alias of
itself is malformed for this reader, where others have a value for it.
-/

namespace GeoMetadata.Yaml

open Number Text Time

/-! ## Kinds of scalars -/

/-- What a scalar is. -/
inductive Kind where
  | null
  | truth
  | int
  | float
  | timestamp
  | text
  /-- The key of mappings to be merged. -/
  | merge
  /-- The key of a default value, which is a text. -/
  | value
  deriving DecidableEq, Repr

/-- The tags of the core schema for scalars. -/
def kindNames : List (String × Kind) :=
  [("null", .null), ("bool", .truth), ("int", .int), ("float", .float),
    ("timestamp", .timestamp), ("str", .text), ("merge", .merge), ("value", .value)]

/-- The kind that a tag names. -/
def Kind.ofTag? (tag : String) : Option Kind :=
  kindNames.findSome? fun (name, kind) => if tag = corePrefix ++ name then some kind else none

/-- The words for truth values in plain scalars. -/
def truthWords : List String := ["true", "True", "TRUE", "false", "False", "FALSE"]

/-- The words for nothing in plain scalars. -/
def nullWords : List String := ["", "~", "null", "Null", "NULL"]

/-- A digit, or an underscore between digits. -/
def isSpacedDigit (c : Char) : Bool := isAsciiDigit c || c = '_'

/-- A text of at least one character, all of a class. -/
def someAll (p : Char → Bool) (text : List Char) : Bool := !text.isEmpty && text.all p

/-- An exponent: its letter, a sign, and digits. -/
def isExponent (signRequired : Bool) (text : List Char) : Bool :=
  match text with
  | letter :: rest =>
    (letter = 'e' || letter = 'E') &&
      match rest with
      | '+' :: digits => someAll isAsciiDigit digits
      | '-' :: digits => someAll isAsciiDigit digits
      | digits => !signRequired && someAll isAsciiDigit digits
  | [] => false

/-- The form of a floating-point number. -/
def isFloatForm (text : List Char) : Bool :=
  let unsigned := (splitSign text).2
  let (whole, afterWhole) := unsigned.span isSpacedDigit
  if [".nan", ".NaN", ".NAN"].contains (String.ofList text) then true
  else if [".inf", ".Inf", ".INF"].contains (String.ofList unsigned) then true
  else match afterWhole with
    | '.' :: afterPoint =>
      let (fraction, rest) := afterPoint.span isSpacedDigit
      if whole = [] then fraction ≠ [] && (rest = [] || isExponent true rest)
      else whole.head? ≠ some '_' && (rest = [] || isExponent false rest)
    | rest => whole ≠ [] && whole.head? ≠ some '_' && isExponent false rest

/-- The form of an integer. -/
def isIntForm (text : List Char) : Bool :=
  let isBit (c : Char) : Bool := c = '0' || c = '1' || c = '_'
  let isOctal (c : Char) : Bool := ('0' ≤ c && c ≤ '7') || c = '_'
  let isHex (c : Char) : Bool := (hexValue? c).isSome || c = '_'
  text.head? ≠ some '_' &&
    match (splitSign text).2 with
    | '0' :: 'b' :: digits => someAll isBit digits
    | '0' :: 'o' :: digits => someAll isOctal digits
    | '0' :: 'x' :: digits => someAll isHex digits
    | digits => someAll isSpacedDigit digits

/-- The form of a timestamp. -/
def isTimestampForm (text : List Char) : Bool := (writtenTimestamp? text).any (·.isFullDate)

/-- The kind of a plain scalar. -/
def Kind.ofPlain (text : String) : Kind :=
  if truthWords.contains text then .truth
  else if isFloatForm text.toList then .float
  else if isIntForm text.toList then .int
  else if text = "<<" then .merge
  else if nullWords.contains text then .null
  else if isTimestampForm text.toList then .timestamp
  else if text = "=" then .value
  else .text

/-! ## Scalars -/

/-- Why a text has no value. -/
inductive Fault where
  /-- It is no YAML, or holds tags or keys that are not allowed. The detail says where. -/
  | malformed (detail : String)
  | calendar (fault : CalendarFault)
  | integer (fault : IntegerFault)
  /-- The digits are none of the base. -/
  | digits (base : Nat) (text : String)
  | float (text : String)
  /-- A number without any character. -/
  | noDigits
  | truthWord (text : String)
  /-- Something else stops the reader. -/
  | other (detail : String)
  deriving DecidableEq, Repr

/-- The fault of a text of the wrong form. It does not say where. -/
def Fault.form : Fault := .malformed "the text is no YAML"

/-- A text without underscores. -/
def withoutUnderscores (text : String) : List Char := text.toList.filter (· ≠ '_')

/-- The number that digits of a base up to sixteen denote. -/
def readBase (base : Nat) (digits : List Char) : Except Fault Nat :=
  match digits.mapM hexValue? with
  | some values =>
    if digits ≠ [] ∧ values.all (· < base) then .ok (values.foldl (fun n d => base * n + d) 0)
    else .error (.digits base (String.ofList digits))
  | none => .error (.digits base (String.ofList digits))

/-- The size of an integer without its sign. -/
def readSize (text : List Char) : Except Fault Nat :=
  match text with
  | '0' :: 'b' :: digits => readBase 2 digits
  | '0' :: 'x' :: digits => readBase 16 digits
  | '0' :: 'o' :: digits => readBase 8 digits
  | digits =>
    if digits = [] then .error (.digits 10 "")
    else (readNatural (strip (String.ofList digits))).mapError .integer

/-- The integer of a scalar. -/
def readInt (text : String) : Except Fault Value :=
  let digits := withoutUnderscores text
  if digits = [] then .error .noDigits
  else
    let (negative, unsigned) := splitSign digits
    (readSize unsigned).map fun n => .int (if negative then -(n : Int) else n)

/-- The floating-point number of a scalar. -/
def readFloat (text : String) : Except Fault Value :=
  let digits := (withoutUnderscores text).map Char.toLower
  if digits = [] then .error .noDigits
  else
    let (negative, unsigned) := splitSign digits
    if unsigned = ".inf".toList then .ok (.float (.infinite negative))
    else if unsigned = ".nan".toList then .ok (.float .nan)
    else match readNumber? (strip (String.ofList unsigned)).toList with
      | some x => .ok (.float (if negative then x.neg else x))
      | none => .error (.float (String.ofList unsigned))

/-- The truth value of a scalar. -/
def readTruth (text : String) : Except Fault Value :=
  let word := lower text
  if ["true", "yes", "y", "on"].contains word then .ok (.bool true)
  else if ["false", "no", "n", "off"].contains word then .ok (.bool false)
  else .error (.truthWord word)

/-- The value of a scalar of a kind. -/
def readScalar (kind : Kind) (text : String) : Except Fault Value :=
  match kind with
  | .null => .ok .null
  | .truth => readTruth text
  | .int => readInt text
  | .float => readFloat text
  | .timestamp =>
    match writtenTimestamp? text.toList with
    | some written => written.value.mapError .calendar
    | none => .error .form
  | .text => .ok (.text text)
  | .merge => .error .form
  | .value => .error .form

/-- The kind of a scalar, if its tag is known. -/
def scalarKind? (tag : Option String) (isPlain : Bool) (text : String) : Option Kind :=
  match tag with
  | some tag => Kind.ofTag? tag
  | none => some (if isPlain then Kind.ofPlain text else .text)

/-! ## Collections -/

/-- The node is the key of mappings to be merged. -/
def Node.isMerge : Node → Bool
  | .scalar tag isPlain text => scalarKind? tag isPlain text = some .merge
  | _ => false

/-- The tag of a collection is missing or has this name. -/
def isTagged (name : String) (tag : Option String) : Bool := tag.all (· = corePrefix ++ name)

/-- The value can be a key. A sequence can if it holds no collections. -/
def isKeyValue : Value → Bool
  | .map _ => false
  | .list items => items.all fun item => match item with
    | .map _ => false
    | .list _ => false
    | _ => true
  | _ => true

/-- The map of entries whose keys have to be different. -/
def distinctMap : List (Value × Value) → List (Value × Value) → Except Fault Value
  | done, [] => .ok (.map done.reverse)
  | done, (key, value) :: rest =>
    if done.any fun entry => entry.1.sameKey key then .error .form
    else distinctMap ((key, value) :: done) rest

/-- The entries of a mapping: those merged into it, and its own. -/
structure Entries where
  merged : List (Value × Value)
  own : List (Value × Value)

mutual

/-- The value of a node. -/
def Node.value : Node → Except Fault Value
  | .scalar tag isPlain text =>
    match scalarKind? tag isPlain text with
    | some kind => readScalar kind text
    | none => .error .form
  | .sequence tag items =>
    if isTagged "seq" tag then (itemValues items).map .list else .error .form
  | .mapping tag entries =>
    if isTagged "map" tag then
      match entryValues entries with
      | .error fault => .error fault
      | .ok ⟨[], own⟩ => distinctMap [] own
      | .ok ⟨merged, own⟩ => .ok (Value.ofEntries (merged ++ own))
    else .error .form

/-- The values of some nodes. -/
def itemValues : List Node → Except Fault (List Value)
  | [] => .ok []
  | item :: rest => do .ok ((← item.value) :: (← itemValues rest))

/-- The value of a key. -/
def keyValue : Node → Except Fault Value
  | .scalar tag isPlain text =>
    if scalarKind? tag isPlain text = some .value then .ok (.text text)
    else Node.value (.scalar tag isPlain text)
  | .sequence tag items => do
    let key ← Node.value (.sequence tag items)
    if isKeyValue key then .ok key else .error .form
  | .mapping .. => .error .form

/-- The values of the entries of a mapping. Of the merge keys only one may bring entries. -/
def entryValues : List (Node × Node) → Except Fault Entries
  | [] => .ok ⟨[], []⟩
  | (key, value) :: rest =>
    if key.isMerge then do
      let merged ← mergeSource value
      let others ← entryValues rest
      if merged.isEmpty then .ok others
      else if rest.any fun entry => entry.1.isMerge then .error .form
      else .ok ⟨merged, others.own⟩
    else do
      let key ← keyValue key
      let value ← value.value
      let others ← entryValues rest
      .ok ⟨others.merged, (key, value) :: others.own⟩

/-- The entries that a merge key brings: those of a mapping, or those of several mappings, of
which the first counts most. -/
def mergeSource : Node → Except Fault (List (Value × Value))
  | .mapping _ entries => (entryValues entries).map fun found => found.merged ++ found.own
  | .sequence _ items => mergeItems items
  | .scalar .. => .error .form

/-- The entries of some mappings, those of the last in front. -/
def mergeItems : List Node → Except Fault (List (Value × Value))
  | [] => .ok []
  | .mapping _ entries :: rest => do
    let found ← entryValues entries
    .ok ((← mergeItems rest) ++ found.merged ++ found.own)
  | _ :: _ => .error .form

end

/-! ## Texts -/

/-- What is said about a text without a value. -/
def Fault.message : Fault → String
  | .malformed detail => detail
  | .calendar fault => fault.message
  | .integer fault => fault.message
  | .digits base text =>
    "invalid literal for int() with base " ++ toString base ++ ": " ++ Text.quoted text
  | .float text => "could not convert string to float: " ++ Text.quoted text
  | .noDigits => "string index out of range"
  | .truthWord text => Text.quoted text
  | .other detail => detail

/-- The value of a text. A text without a document has the value null. -/
def read (text : List Char) : Except Fault Value :=
  match (Token.scan text).bind Node.ofTokens? with
  | none => .error .form
  | some none => .ok .null
  | some (some node) => node.value

end GeoMetadata.Yaml
