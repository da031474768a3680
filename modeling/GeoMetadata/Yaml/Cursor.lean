import GeoMetadata.Text.Range

/-!
# Places in YAML text

A cursor is a place in a text: what is left of it, with the line, the column and the number
of characters before.  The characters of YAML text are the printable ones and the breaks.
-/

namespace GeoMetadata.Yaml

open Text

/-- The characters of YAML text. -/
def characterRanges : List CodeRange :=
  [(0x9, 0xA), (0xD, 0xD), (0x20, 0x7E), (0x85, 0x85), (0xA0, 0xD7FF), (0xE000, 0xFFFD),
    (0x10000, 0x10FFFF)]

/-- A character of YAML text. -/
def isCharacter (c : Char) : Bool := inRanges characterRanges c

/-- The mark that may stand at the start of a text. -/
def byteOrderMark : Char := Char.ofNat 0xFEFF

/-- A line break. -/
def isBreak (c : Char) : Bool :=
  c = '\n' || c = '\r' || c.toNat = 0x85 || c.toNat = 0x2028 || c.toNat = 0x2029

/-- A space or a tab. -/
def isBlank (c : Char) : Bool := c = ' ' || c = '\t'

/-- What a line break stands for in a scalar. -/
def breakCharacter (c : Char) : Char :=
  if c.toNat = 0x2028 || c.toNat = 0x2029 then c else '\n'

/-- A place in a text. -/
structure Cursor where
  rest : List Char
  line : Nat
  column : Nat
  index : Nat

namespace Cursor

/-- The start of a text. -/
def start (text : List Char) : Cursor := ⟨text, 0, 0, 0⟩

/-- The next character. -/
def head? (c : Cursor) : Option Char := c.rest.head?

/-- The character so many places on. -/
def peek? (c : Cursor) (n : Nat) : Option Char := c.rest[n]?

/-- The place after the next character. -/
def next (c : Cursor) : Cursor :=
  match c.rest with
  | [] => c
  | x :: rest =>
    if isBreak x then ⟨rest, c.line + 1, 0, c.index + 1⟩
    else ⟨rest, c.line, c.column + 1, c.index + 1⟩

/-- The place so many characters on. -/
def advance (c : Cursor) : Nat → Cursor
  | 0 => c
  | n + 1 => c.next.advance n

/-- The next character is this one. -/
def atChar (c : Cursor) (x : Char) : Bool := c.head? = some x

/-- The character so many places on is a space, a tab, a break, or none at all. -/
def isGapAt (c : Cursor) (n : Nat) : Bool := (c.peek? n).all fun x => isBlank x || isBreak x

/-- The place is the start of a line that holds this mark of three characters alone or before
a gap. -/
def atMark (c : Cursor) (mark : List Char) : Bool :=
  c.column = 0 && mark.isPrefixOf c.rest && c.isGapAt 3

/-- The place is the start of a line that starts or ends a document. -/
def atDocumentMark (c : Cursor) : Bool :=
  c.atMark ['-', '-', '-'] || c.atMark ['.', '.', '.']

/-- Passes over the characters of a class on the present line. -/
def skipOnLine (c : Cursor) (p : Char → Bool) : Cursor :=
  c.advance (c.rest.takeWhile fun x => p x && !isBreak x).length

end Cursor

end GeoMetadata.Yaml
