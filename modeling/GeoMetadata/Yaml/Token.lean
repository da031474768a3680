import GeoMetadata.Yaml.Scalar

/-!
# The tokens of YAML

Tokens are the marks and scalars of a text, together with the starts and ends of blocks, which
the indentation gives.  A key within a line is recognised only at the colon after it, so every
place where a key may start is remembered until it is too far away; at the colon a key token
is inserted there, and before it the start of a block if the indentation asks for one.
-/

namespace GeoMetadata.Yaml

open Text

/-- A token of YAML. -/
inductive Token where
  | documentStart
  | documentEnd
  | sequenceStart
  | mappingStart
  | blockEnd
  | flowSequenceStart
  | flowSequenceEnd
  | flowMappingStart
  | flowMappingEnd
  | blockEntry
  | flowEntry
  | key
  | value
  | alias (name : String)
  | anchor (name : String)
  /-- A tag by its handle, which is empty if the tag is given in full, and its suffix. -/
  | tag (handle suffix : String)
  | scalar (isPlain : Bool) (text : String)
  deriving DecidableEq, Repr, Inhabited

/-- A place where a key may have started: the number of tokens before it, and whether a key
has to be there. -/
structure KeyPlace where
  tokens : Nat
  line : Nat
  index : Nat
  column : Nat
  isRequired : Bool

/-- The greatest length of a key within a line. -/
def longestKey : Nat := 1024

/-- What the scanner has come to: the place, the tokens before it, the indentation of the
present block and of those around it, the places of possible keys, one for the block and one
for each bracket around the place, and whether a key may start here. -/
structure Scanner where
  cursor : Cursor
  tokens : Array Token
  indents : List Nat
  keys : List (Option KeyPlace)
  keyAllowed : Bool

namespace Scanner

/-- The scanner at the start of a text. -/
def start (text : List Char) : Scanner := ⟨.start text, #[], [], [none], true⟩

/-- The place is within brackets. -/
def isFlow (s : Scanner) : Bool := 1 < s.keys.length

/-- The least column of the lines of a block. -/
def leastColumn (s : Scanner) : Nat := s.indents.head?.elim 0 (· + 1)

/-- The scanner with one more token. -/
def push (s : Scanner) (token : Token) : Scanner := { s with tokens := s.tokens.push token }

/-- The scanner with a token of so many characters. -/
def mark (s : Scanner) (token : Token) (length : Nat) : Scanner :=
  { s.push token with cursor := s.cursor.advance length }

/-! ## Keys -/

/-- The scanner without the possible key of the present block or bracket, which must not be
required. -/
def dropKey (s : Scanner) : Option Scanner :=
  match s.keys with
  | some place :: outer =>
    if place.isRequired then none else some { s with keys := none :: outer }
  | _ => some s

/-- The scanner with a possible key at the present place. A key is required at the
indentation of a block. -/
def saveKey (s : Scanner) : Option Scanner :=
  if s.keyAllowed then do
    let s ← s.dropKey
    let c := s.cursor
    let isRequired := !s.isFlow && s.indents.head? = some c.column
    some { s with keys := some ⟨s.tokens.size, c.line, c.index, c.column, isRequired⟩
      :: s.keys.drop 1 }
  else some s

/-- The possible key is on the present line and not too far away. -/
def KeyPlace.isFresh (place : KeyPlace) (c : Cursor) : Bool :=
  place.line = c.line && c.index ≤ place.index + longestKey

/-- The scanner without the possible keys that are too far away, of which none must be
required. -/
def dropStaleKeys (s : Scanner) : Option Scanner := do
  let keys ← s.keys.mapM fun place =>
    match place with
    | none => some none
    | some place =>
      if KeyPlace.isFresh place s.cursor then some (some place)
      else if place.isRequired then none else some none
  some { s with keys := keys }

/-! ## Indentation -/

/-- The tokens with one more at a position. -/
def insertAt (tokens : Array Token) (position : Nat) (token : Token) : Array Token :=
  tokens.extract 0 position |>.push token |>.append (tokens.extract position tokens.size)

/-- The scanner with a block started at a column, if that is deeper than the present block;
the start of the block stands at a position among the tokens. -/
def openBlock (s : Scanner) (column position : Nat) (token : Token) : Scanner :=
  if s.isFlow then s
  else if s.indents.head?.all (· < column) then
    { s with indents := column :: s.indents, tokens := insertAt s.tokens position token }
  else s

/-- The scanner with the blocks ended that are deeper than a column. -/
def closeBlocks (s : Scanner) (column : Nat) : Scanner :=
  if s.isFlow then s
  else
    let deeper := s.indents.takeWhile (column < ·)
    { s with
      indents := s.indents.drop deeper.length
      tokens := s.tokens ++ Array.replicate deeper.length .blockEnd }

/-- The scanner with all blocks ended. -/
def closeAllBlocks (s : Scanner) : Scanner :=
  if s.isFlow then s
  else { s with indents := [], tokens := s.tokens ++ Array.replicate s.indents.length .blockEnd }

/-! ## Between tokens -/

/-- Passes over spaces, comments and line breaks. A tab may stand where no key may start. After
a line break a key may start, but not within brackets. -/
def skipGap : Nat → Scanner → Scanner
  | 0, s => s
  | fuel + 1, s =>
    let c := s.cursor
    let c := if c.column = 0 && c.atChar byteOrderMark then c.next else c
    let c := c.skipOnLine fun x => x = ' ' || (x = '\t' && (s.isFlow || !s.keyAllowed))
    let c := if c.atChar '#' then c.skipOnLine fun _ => true else c
    if c.head?.any isBreak then
      skipGap fuel { s with cursor := c.next, keyAllowed := s.keyAllowed || !s.isFlow }
    else { s with cursor := c }

/-! ## Tokens -/

/-- A mark at the start of a line that starts or ends a document. -/
def documentMark (s : Scanner) (token : Token) : Option Scanner := do
  let s ← s.closeAllBlocks.dropKey
  some { s.mark token 3 with keyAllowed := false }

/-- An opening bracket. -/
def openFlow (s : Scanner) (token : Token) : Option Scanner := do
  let s ← s.saveKey
  some { s.mark token 1 with keys := none :: s.keys, keyAllowed := true }

/-- A closing bracket. -/
def closeFlow (s : Scanner) (token : Token) : Option Scanner := do
  let s ← s.dropKey
  let keys := if s.isFlow then s.keys.drop 1 else s.keys
  some { s.mark token 1 with keys := keys, keyAllowed := false }

/-- A comma within brackets. -/
def flowEntry (s : Scanner) : Option Scanner := do
  let s ← s.dropKey
  some { s.mark .flowEntry 1 with keyAllowed := true }

/-- The mark of an entry of a block sequence. -/
def blockEntry (s : Scanner) : Option Scanner := do
  if !s.isFlow && !s.keyAllowed then none
  let s ← (s.openBlock s.cursor.column s.tokens.size .sequenceStart).dropKey
  some { s.mark .blockEntry 1 with keyAllowed := true }

/-- The mark of a key. -/
def keyMark (s : Scanner) : Option Scanner := do
  if !s.isFlow && !s.keyAllowed then none
  let s ← (s.openBlock s.cursor.column s.tokens.size .mappingStart).dropKey
  some { s.mark .key 1 with keyAllowed := !s.isFlow }

/-- The colon between a key and its value. -/
def valueMark (s : Scanner) : Option Scanner :=
  match s.keys with
  | some place :: outer =>
    let s := { s with tokens := insertAt s.tokens place.tokens .key, keys := none :: outer }
    let s := s.openBlock place.column place.tokens .mappingStart
    some { s.mark .value 1 with keyAllowed := false }
  | _ =>
    if !s.isFlow && !s.keyAllowed then none
    else
      let s := s.openBlock s.cursor.column s.tokens.size .mappingStart
      some { s.mark .value 1 with keyAllowed := !s.isFlow }

/-- A character of the name of an anchor. -/
def isNameCharacter (x : Char) : Bool := x.isAlphanum || x = '_' || x = '-'

/-- The name of an anchor, at the mark before it. Something that is no part of a name follows
it. -/
def anchorName (c : Cursor) : Option (String × Cursor) :=
  let name := c.next.rest.takeWhile isNameCharacter
  let after := c.next.advance name.length
  if name = [] then none
  else if after.isGapAt 0 || (after.head?.any fun x => "?:,]\x7d%@".toList.contains x || x.toNat = 0x60)
  then some (String.ofList name, after)
  else none

/-- An anchor or an alias. -/
def anchor (s : Scanner) (token : String → Token) : Option Scanner := do
  let s ← s.saveKey
  let (name, c) ← anchorName s.cursor
  some { s.push (token name) with cursor := c, keyAllowed := false }

/-- A character of a tag. Those of `isFlowMark` end a tag that is not given in full. -/
def isTagCharacter (x : Char) : Bool :=
  x.isAlphanum || "-_;/?:@&=+$.%!~*'()".toList.contains x

/-- A tag, at its exclamation mark: its handle and its suffix. -/
def tagParts (c : Cursor) : Option ((String × String) × Cursor) :=
  if c.peek? 1 = some '<' then
    let uri := (c.rest.drop 2).takeWhile fun x => isTagCharacter x || x = ',' || x = '[' || x = ']'
    let after := c.advance (2 + uri.length)
    if uri = [] ∨ !after.atChar '>' then none else some (("", String.ofList uri), after.next)
  else
    let name := c.next.rest.takeWhile isNameCharacter
    let afterName := c.next.advance name.length
    let (handle, after) := if afterName.atChar '!' then
        (['!'] ++ name ++ ['!'], afterName.next)
      else (['!'], c.next)
    let suffix := after.rest.takeWhile isTagCharacter
    if suffix = [] ∧ handle ≠ ['!'] then none
    else some ((String.ofList handle, String.ofList suffix), after.advance suffix.length)

/-- A tag. A gap follows it, or a comma within brackets. -/
def tag (s : Scanner) : Option Scanner := do
  let s ← s.saveKey
  let ((handle, suffix), c) ← tagParts s.cursor
  if c.isGapAt 0 || (s.isFlow && c.atChar ',') then
    some { s.push (.tag handle suffix) with cursor := c, keyAllowed := false }
  else none

/-- A block scalar. -/
def blockScalar (s : Scanner) (folds : Bool) : Option Scanner := do
  let s ← s.dropKey
  let (text, c) ← block folds s.indents.head? s.cursor
  some { s.push (.scalar false text) with cursor := c, keyAllowed := true }

/-- A quoted scalar. -/
def quotedScalar (s : Scanner) (single : Bool) : Option Scanner := do
  let s ← s.saveKey
  let (text, c) ← quoted single s.cursor
  some { s.push (.scalar false text) with cursor := c, keyAllowed := false }

/-- A plain scalar. A key may start after it only if a line break follows. -/
def plainScalar (s : Scanner) : Option Scanner := do
  let s ← s.saveKey
  let ((text, broken), c) ← plain s.isFlow s.leastColumn s.cursor
  some { s.push (.scalar true text) with cursor := c, keyAllowed := broken }

/-- The characters that cannot start a plain scalar. -/
def indicators : List Char := "-?:,[]\x7b\x7d#&*!|>'\"%@".toList ++ [Char.ofNat 0x60]

/-- A plain scalar can start here. -/
def startsPlain (s : Scanner) (x : Char) : Bool :=
  let c := s.cursor
  (!indicators.contains x && !isBlank x)
    || (x = '-' && !(c.peek? 1).any isBlank)
    || (!s.isFlow && (x = '?' || x = ':') && !c.isGapAt 1)

/-- The scanner after the token that starts with a character. -/
def token (s : Scanner) (x : Char) : Option Scanner :=
  let c := s.cursor
  if c.column = 0 ∧ x = '%' then none
  else if c.atMark ['-', '-', '-'] then s.documentMark .documentStart
  else if c.atMark ['.', '.', '.'] then s.documentMark .documentEnd
  else if x = '[' then s.openFlow .flowSequenceStart
  else if x = '\x7b' then s.openFlow .flowMappingStart
  else if x = ']' then s.closeFlow .flowSequenceEnd
  else if x = '\x7d' then s.closeFlow .flowMappingEnd
  else if x = ',' then s.flowEntry
  else if x = '-' ∧ c.isGapAt 1 then s.blockEntry
  else if x = '?' ∧ (s.isFlow ∨ c.isGapAt 1) then s.keyMark
  else if x = ':' ∧ (s.isFlow ∨ c.isGapAt 1) then s.valueMark
  else if x = '*' then s.anchor .alias
  else if x = '&' then s.anchor .anchor
  else if x = '!' then s.tag
  else if x = '|' ∧ !s.isFlow then s.blockScalar false
  else if x = '>' ∧ !s.isFlow then s.blockScalar true
  else if x = '\'' then s.quotedScalar true
  else if x = '"' then s.quotedScalar false
  else if s.startsPlain x then s.plainScalar
  else none

/-- The scanner after all tokens. -/
def run : Nat → Scanner → Option Scanner
  | 0, _ => none
  | fuel + 1, s => do
    let s ← (s.skipGap (s.cursor.rest.length + 1)).dropStaleKeys
    match s.cursor.head? with
    | none => s.closeAllBlocks.dropKey
    | some x => run fuel (← (s.closeBlocks s.cursor.column).token x)

end Scanner

/-- The tokens of a text. -/
def Token.scan (text : List Char) : Option (List Token) :=
  let text := if text.head? = some byteOrderMark then text.drop 1 else text
  if text.all isCharacter then
    (Scanner.run (text.length + 1) (.start text)).map fun s => s.tokens.toList
  else none

end GeoMetadata.Yaml
