import GeoMetadata.Xml.Element

/-!
# Writing XML

Markup characters in texts and attribute values are written as references, and so are the
line breaks and tabs that reading would change.  In the indented form every child stands on a
line of its own, two spaces deeper than its parent up to a greatest depth, but an element
that has a text keeps all of its content in one line.
-/

namespace GeoMetadata.Xml

open Text

/-- A character within a text. -/
def escapeInText (c : Char) : List Char :=
  if c = '&' then "&amp;".toList
  else if c = '<' then "&lt;".toList
  else if c = '>' then "&gt;".toList
  else if c = '\r' then "&#13;".toList
  else [c]

/-- A character within an attribute value. -/
def escapeInValue (c : Char) : List Char :=
  if c = '"' then "&quot;".toList
  else if c = '\n' then "&#10;".toList
  else if c = '\t' then "&#9;".toList
  else escapeInText c

/-- A name with its prefix. -/
def shownName (shownPrefix : Option String) (part : String) : List Char :=
  match shownPrefix with
  | none => part.toList
  | some declared => declared.toList ++ ':' :: part.toList

/-- A name with its value, after a space. -/
def writeValue (name : List Char) (value : String) : List Char :=
  ' ' :: name ++ '=' :: '"' :: value.toList.flatMap escapeInValue ++ ['"']

/-- A namespace declaration. The prefix `xml` is never declared. -/
def writeDeclaration : Declaration → List Char
  | (none, uri) => writeValue "xmlns".toList uri
  | (some declared, uri) =>
    if declared = "xml" then [] else writeValue ("xmlns:".toList ++ declared.toList) uri

/-- An attribute. -/
def writeAttribute (attr : Attribute) : List Char :=
  writeValue (shownName attr.shownPrefix attr.name.part) attr.value

/-- The number of spaces that a level is deeper than the one around it. -/
def indentWidth : Nat := 2

/-- The level from which on lines are not indented further. -/
def deepestIndent : Nat := 30

/-- The spaces before a line. -/
def indentation (level : Nat) : List Char :=
  List.replicate (indentWidth * min level deepestIndent) ' '

namespace Element

mutual

/-- Writes an element that stands at a level, its content indented or not. -/
def write (indented : Bool) (level : Nat) : Element → List Char
  | ⟨name, shownPrefix, declarations, attributes, text, children⟩ =>
    let shown := shownName shownPrefix name.part
    let start := '<' :: shown ++ declarations.flatMap writeDeclaration
      ++ attributes.flatMap writeAttribute
    match text, children with
    | none, [] => start ++ ['/', '>']
    | some text, children =>
      start ++ '>' :: text.toList.flatMap escapeInText ++ writeAll false (level + 1) children
        ++ '<' :: '/' :: shown ++ ['>']
    | none, children =>
      start ++ '>' :: (if indented then ['\n'] else []) ++ writeAll indented (level + 1) children
        ++ (if indented then indentation level else []) ++ '<' :: '/' :: shown ++ ['>']

/-- Writes the children of an element. -/
def writeAll (indented : Bool) (level : Nat) : List Element → List Char
  | [] => []
  | child :: rest =>
    (if indented then indentation level ++ write indented level child ++ ['\n']
      else write indented level child)
      ++ writeAll indented level rest

end

/-- The text of an element, which ends its last line if it is indented. -/
def toText (indented : Bool) (element : Element) : String :=
  String.ofList (element.write indented 0 ++ if indented then ['\n'] else [])

end Element

/-- The first line of a file. -/
def fileHeader : String := "<?xml version='1.0' encoding='UTF-8'?>\n"

/-- The text of an XML file. -/
def Element.toFileText (indented : Bool) (element : Element) : String :=
  fileHeader ++ element.toText indented

end GeoMetadata.Xml
