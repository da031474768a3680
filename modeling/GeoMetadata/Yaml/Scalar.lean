import GeoMetadata.Text.Digits
import GeoMetadata.Yaml.Cursor

/-!
# The scalars of YAML

Scalars are plain, quoted, or blocks.  In plain and quoted scalars a line break is folded: one
break is a space, and of several the first is dropped.  A block keeps its breaks or folds
those between lines that do not start with a blank, and its last breaks are kept, dropped or
reduced to one.
-/

namespace GeoMetadata.Yaml

open Text

/-! ## Folding -/

/-- The gap since the last character of a scalar: blanks, or a first line break and those after
it. A first break may be escaped, and then counts as nothing. -/
structure Gap where
  blanks : List Char
  broken : Bool
  first : List Char
  others : List Char

/-- No gap. -/
def Gap.none : Gap := ⟨[], false, [], []⟩

/-- The gap of an escaped line break. -/
def Gap.escaped : Gap := ⟨[], true, [], []⟩

/-- What a gap contributes to a scalar. -/
def Gap.folded (gap : Gap) : List Char :=
  if !gap.broken then gap.blanks
  else if gap.first = ['\n'] then (if gap.others = [] then [' '] else gap.others)
  else gap.first ++ gap.others

/-- Passes over blanks and breaks. In a line after the first, a tab must not stand before the
column `least`. -/
def scanGap (least : Nat) : Nat → Gap → Cursor → Option (Gap × Cursor)
  | 0, gap, c => some (gap, c)
  | fuel + 1, gap, c =>
    match c.head? with
    | none => some (gap, c)
    | some x =>
      if isBlank x then
        if gap.broken then
          if x = '\t' ∧ c.column < least then Option.none else scanGap least fuel gap c.next
        else scanGap least fuel { gap with blanks := gap.blanks ++ [x] } c.next
      else if isBreak x then
        if gap.broken then
          scanGap least fuel { gap with others := gap.others ++ [breakCharacter x] } c.next
        else scanGap least fuel ⟨[], true, [breakCharacter x], []⟩ c.next
      else some (gap, c)

/-! ## Plain scalars -/

/-- A character that ends a plain scalar within brackets. -/
def isFlowMark (x : Char) : Bool :=
  x = ',' || x = '[' || x = ']' || x = '\x7b' || x = '\x7d'

/-- A colon that ends a plain scalar, or another mark that does. -/
def endsPlain (flow : Bool) (c : Cursor) (x : Char) : Bool :=
  (x = ':' && c.isGapAt 1) || (flow && isFlowMark x)

/-- A colon that a plain scalar within brackets must not hold. -/
def isStrayColon (flow : Bool) (c : Cursor) (x : Char) : Bool :=
  flow && x = ':' && (c.peek? 1).any fun y => isFlowMark y || y = '?'

/-- A run of characters of a plain scalar, in reverse order. -/
def plainRun (flow : Bool) : Nat → List Char → Cursor → Option ((List Char) × Cursor)
  | 0, done, c => some (done, c)
  | fuel + 1, done, c =>
    match c.head? with
    | none => some (done, c)
    | some x =>
      if isBlank x || isBreak x then some (done, c)
      else if isStrayColon flow c x then none
      else if endsPlain flow c x then some (done, c)
      else plainRun flow fuel (x :: done) c.next

/-- A plain scalar, in reverse order, and whether a line break follows it. Outside brackets
its lines start at the column `least` or later. -/
def plainFrom (flow : Bool) (least : Nat) : Nat → List Char → Gap → Cursor →
    Option ((List Char × Bool) × Cursor)
  | 0, _, _, _ => none
  | fuel + 1, done, gap, c =>
    if c.atDocumentMark || c.atChar '#' then some ((done, gap.broken), c)
    else do
      let (run, c) ← plainRun flow (c.rest.length + 1) [] c
      let (done, gap) := if run = [] then (done, gap)
        else (run ++ gap.folded.reverse ++ done, Gap.none)
      match c.head? with
      | none => some ((done, gap.broken), c)
      | some x =>
        if !(isBlank x || isBreak x) then some ((done, gap.broken), c)
        else
          let (gap, c) ← scanGap least (c.rest.length + 1) gap c
          if !flow && c.column < least then some ((done, gap.broken), c)
          else plainFrom flow least fuel done gap c

/-- A plain scalar, and whether a line break follows it. -/
def plain (flow : Bool) (least : Nat) (c : Cursor) : Option ((String × Bool) × Cursor) := do
  let ((done, broken), c) ← plainFrom flow least (c.rest.length + 1) [] .none c
  some ((String.ofList done.reverse, broken), c)

/-! ## Quoted scalars -/

/-- The character that an escape of one letter stands for. -/
def escaped? : Char → Option Char
  | '0' => some '\x00'
  | 'a' => some '\x07'
  | 'b' => some '\x08'
  | 't' => some '\t'
  | '\t' => some '\t'
  | 'n' => some '\n'
  | 'v' => some '\x0b'
  | 'f' => some '\x0c'
  | 'r' => some '\r'
  | 'e' => some '\x1b'
  | ' ' => some ' '
  | '"' => some '"'
  | '/' => some '/'
  | '\\' => some '\\'
  | 'N' => some (Char.ofNat 0x85)
  | '_' => some (Char.ofNat 0xA0)
  | 'L' => some (Char.ofNat 0x2028)
  | 'P' => some (Char.ofNat 0x2029)
  | _ => none

/-- The number of digits of an escape by code. -/
def escapeLength? : Char → Option Nat
  | 'x' => some 2
  | 'u' => some 4
  | 'U' => some 8
  | _ => none

/-- The character of a code that is no surrogate. -/
def character? (n : Nat) : Option Char :=
  if n < 0xD800 ∨ (0xDFFF < n ∧ n ≤ 0x10FFFF) then some (Char.ofNat n) else none

/-- The number that hexadecimal digits denote. -/
def hexNumber? (digits : List Char) : Option Nat :=
  (digits.mapM hexValue?).map fun values => values.foldl (fun n d => 16 * n + d) 0

/-- An escape, at its backslash. -/
def escape (c : Cursor) : Option (Char × Cursor) := do
  let letter ← c.peek? 1
  match escaped? letter with
  | some x => some (x, c.advance 2)
  | none =>
    let length ← escapeLength? letter
    let digits := (c.rest.drop 2).take length
    if digits.length = length then
      let x ← (hexNumber? digits).bind character?
      some (x, c.advance (2 + length))
    else none

/-- A run of characters of a quoted scalar, in reverse order, and whether an escaped line break
ends it. -/
def quotedRun (single : Bool) : Nat → List Char → Cursor → Option ((List Char × Bool) × Cursor)
  | 0, done, c => some ((done, false), c)
  | fuel + 1, done, c =>
    match c.head? with
    | none => some ((done, false), c)
    | some x =>
      if isBlank x || isBreak x then some ((done, false), c)
      else if single then
        if x = '\'' then
          if c.peek? 1 = some '\'' then quotedRun single fuel ('\'' :: done) (c.advance 2)
          else some ((done, false), c)
        else quotedRun single fuel (x :: done) c.next
      else if x = '"' then some ((done, false), c)
      else if x = '\\' then
        if (c.peek? 1).any isBreak then some ((done, true), c.advance 2)
        else match escape c with
          | none => none
          | some (y, c) => quotedRun single fuel (y :: done) c
      else quotedRun single fuel (x :: done) c.next

/-- A quoted scalar up to its closing quote, in reverse order. -/
def quotedFrom (single : Bool) : Nat → List Char → Cursor → Option ((List Char) × Cursor)
  | 0, _, _ => none
  | fuel + 1, done, c =>
    if c.atDocumentMark then none
    else do
      let ((done, escapedBreak), c) ← quotedRun single (c.rest.length + 1) done c
      if c.atChar (if single then '\'' else '"') && !escapedBreak then some (done, c.next)
      else if c.rest = [] then none
      else
        let start := if escapedBreak then Gap.escaped else Gap.none
        let (gap, c) ← scanGap 0 (c.rest.length + 1) start c
        quotedFrom single fuel (gap.folded.reverse ++ done) c

/-- A quoted scalar, at its opening quote. -/
def quoted (single : Bool) (c : Cursor) : Option (String × Cursor) := do
  let (done, c) ← quotedFrom single (c.rest.length + 2) [] c.next
  some (String.ofList done.reverse, c)

/-! ## Block scalars -/

/-- What is done with the line breaks at the end of a block. -/
inductive Chomping where
  | strip
  | clip
  | keep
  deriving DecidableEq

/-- The chomping that a mark stands for. -/
def chomping? : Char → Option Chomping
  | '+' => some .keep
  | '-' => some .strip
  | _ => none

/-- The header of a block after its first character: the chomping, and the indentation if it
is given. -/
def blockHeader (c : Cursor) : Option ((Chomping × Option Nat) × Cursor) :=
  let chomping := c.head?.bind chomping?
  let afterChomping := if chomping.isSome then c.next else c
  match afterChomping.head? with
  | some x =>
    if isAsciiDigit x then
      if x = '0' then none
      else
        let c := afterChomping.next
        let late := if chomping.isSome then none else c.head?.bind chomping?
        some (((chomping <|> late).getD .clip, some (asciiDigitValue x)),
          if late.isSome then c.next else c)
    else some ((chomping.getD .clip, none), afterChomping)
  | none => some ((chomping.getD .clip, none), afterChomping)

/-- The place after the line of a block's header, which may end with a comment. -/
def endHeader (c : Cursor) : Option Cursor :=
  let c := c.skipOnLine isBlank
  let c := if c.atChar '#' then c.skipOnLine fun _ => true else c
  match c.head? with
  | none => some c
  | some x => if isBreak x then some c.next else none

/-- Passes over empty lines and the indentation of the next line. Gives the breaks, and the
deepest indentation met. The indentation stops at `limit`, if it is known. -/
def blockBreaks (limit : Option Nat) :
    Nat → List Char → Nat → Cursor → Option ((List Char × Nat) × Cursor)
  | 0, done, deepest, c => some ((done, deepest), c)
  | fuel + 1, done, deepest, c =>
    let within (c : Cursor) : Bool := limit.all fun limit => c.column < limit
    let spaces := (c.rest.takeWhile (· = ' ')).length
    let c := c.advance (limit.elim spaces fun limit => min spaces (limit - c.column))
    let deepest := max deepest c.column
    if within c && c.atChar '\t' then none
    else match c.head? with
      | some x =>
        if isBreak x then
          blockBreaks limit fuel (done ++ [breakCharacter x]) deepest c.next
        else some ((done, deepest), c)
      | none => some ((done, deepest), c)

/-- What a block has come to: its text in reverse order, the break after the last line, the
breaks of the empty lines after that, and whether the last line starts with a blank. -/
structure BlockText where
  done : List Char
  lineBreak : List Char
  breaks : List Char
  afterBlank : Bool

/-- The text with the line at a cursor begun: the breaks before it are folded or kept. -/
def BlockText.beginLine (folds : Bool) (b : BlockText) (startsBlank : Bool) : List Char :=
  let joined :=
    if folds && b.lineBreak = ['\n'] && !b.afterBlank && !startsBlank then
      if b.breaks = [] then [' '] else []
    else b.lineBreak
  (joined ++ b.breaks).reverse ++ b.done

/-- The lines of a block with a known indentation. -/
def blockLines (folds : Bool) (indentation : Nat) :
    Nat → BlockText → Cursor → Option (BlockText × Cursor)
  | 0, b, c => some (b, c)
  | fuel + 1, b, c =>
    if c.column ≠ indentation ∨ c.rest = [] then some (b, c)
    else do
      let startsBlank := c.head?.any isBlank
      let done := b.beginLine folds startsBlank
      let line := c.rest.takeWhile (!isBreak ·)
      let c := c.advance line.length
      let lineBreak := c.head?.toList.map breakCharacter
      let ((breaks, _), c) ← blockBreaks (some indentation) (c.rest.length + 1) [] 0 c.next
      blockLines folds indentation fuel ⟨line.reverse ++ done, lineBreak, breaks, startsBlank⟩ c

/-- A block scalar below an indentation, at its first character. -/
def block (folds : Bool) (outer : Option Nat) (c : Cursor) : Option (String × Cursor) := do
  let ((chomping, given), c) ← blockHeader c.next
  let c ← endHeader c
  let limit := given.map fun n => outer.getD 0 + n
  let ((breaks, deepest), c) ← blockBreaks limit (c.rest.length + 1) [] 0 c
  let indentation := limit.getD (max (max deepest (outer.elim 0 (· + 1))) 1)
  let (b, c) ← blockLines folds indentation (c.rest.length + 1) ⟨[], [], breaks, false⟩ c
  let tail := match chomping with
    | .strip => []
    | .clip => b.lineBreak
    | .keep => b.lineBreak ++ b.breaks
  some (String.ofList (b.done.reverse ++ tail), c)

end GeoMetadata.Yaml
