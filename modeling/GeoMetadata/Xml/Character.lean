import GeoMetadata.Text.Range

/-!
# Characters of XML names and texts

An XML document carries tabs, line breaks and all characters from the space on but for the
surrogates and the two noncharacters at the end of the first plane; `safe` drops the others.
A name part has no colon: it starts with a letter or an underscore and goes on with letters,
digits, hyphens, points and a few marks.
-/

namespace GeoMetadata.Xml

open Text

/-- The characters of XML documents. -/
def characterRanges : List CodeRange :=
  [(0x9, 0xA), (0xD, 0xD), (0x20, 0xD7FF), (0xE000, 0xFFFD), (0x10000, 0x10FFFF)]

/-- A character that an XML document can carry. -/
def isCharacter (c : Char) : Bool := inRanges characterRanges c

/-- The text without the characters that an XML document cannot carry. -/
def safe (text : String) : String := String.ofList (text.toList.filter isCharacter)

/-- The number of characters that `safe` drops. -/
def droppedCount (text : String) : Nat := (text.toList.filter (!isCharacter ·)).length

/-- The text has only characters that an XML document can carry. -/
def isText (text : String) : Bool := text.toList.all isCharacter

/-- The characters that a name part may start with. -/
def nameStartRanges : List CodeRange :=
  [(0x41, 0x5A), (0x5F, 0x5F), (0x61, 0x7A), (0xC0, 0xD6), (0xD8, 0xF6), (0xF8, 0x2FF),
    (0x370, 0x37D), (0x37F, 0x1FFF), (0x200C, 0x200D), (0x2070, 0x218F), (0x2C00, 0x2FEF),
    (0x3001, 0xD7FF), (0xF900, 0xFDCF), (0xFDF0, 0xFFFD), (0x10000, 0xEFFFF)]

/-- The characters that a name part may also have after its first. -/
def nameExtraRanges : List CodeRange :=
  [(0x2D, 0x2E), (0x30, 0x39), (0xB7, 0xB7), (0x300, 0x36F), (0x203F, 0x2040)]

/-- A character that starts a name part. -/
def isNameStart (c : Char) : Bool := inRanges nameStartRanges c

/-- A character of a name part. -/
def isNameCharacter (c : Char) : Bool := inRanges nameStartRanges c || inRanges nameExtraRanges c

/-- A name part. -/
def isNamePart (name : String) : Bool :=
  match name.toList with
  | [] => false
  | c :: rest => isNameStart c && rest.all isNameCharacter

theorem safe_isText (text : String) : isText (safe text) = true := by
  simp [isText, safe]

end GeoMetadata.Xml
