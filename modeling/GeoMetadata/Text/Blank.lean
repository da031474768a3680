import GeoMetadata.Text.Range

/-!
# Blank characters and stripping

White space is every character that Unicode counts as space or that separates lines,
paragraphs or records.  The zero-width space and the byte order mark are not among them.
-/

namespace GeoMetadata.Text

/-- The ranges of white space. -/
def blankRanges : List CodeRange :=
  [(0x9, 0xD), (0x1C, 0x20), (0x85, 0x85), (0xA0, 0xA0), (0x1680, 0x1680), (0x2000, 0x200A),
    (0x2028, 0x2029), (0x202F, 0x202F), (0x205F, 0x205F), (0x3000, 0x3000)]

/-- White space. -/
def isBlank (c : Char) : Bool := inRanges blankRanges c

/-- A text of white space only; the empty text counts. -/
def allBlank (s : String) : Bool := s.toList.all isBlank

/-- The text without the white space at its two ends. -/
def strip (s : String) : String :=
  String.ofList ((s.toList.dropWhile isBlank).reverse.dropWhile isBlank).reverse

end GeoMetadata.Text
