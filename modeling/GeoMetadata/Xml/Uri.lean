import GeoMetadata.Text.Digits

/-!
# URI references

The grammar of URI references: an optional scheme, an optional authority, a path, and an
optional query and fragment, all in ASCII.  Each scanner passes over the longest text of its
class and gives the rest, or `none` if something that must follow is missing.
-/

namespace GeoMetadata.Xml.Uri

open Text

/-- A letter of ASCII. -/
def isLetter (c : Char) : Bool := ('a' ≤ c && c ≤ 'z') || ('A' ≤ c && c ≤ 'Z')

/-- A character that has no meaning of its own in a reference. -/
def isUnreserved (c : Char) : Bool := isLetter c || isAsciiDigit c || "-._~".toList.contains c

/-- A character that separates parts of a component. -/
def isDelimiter (c : Char) : Bool := "!$&'()*+,;=".toList.contains c

/-- Passes over characters of a class and over escapes of two hexadecimal digits. The counter
is the number of digits of an escape still to be passed over. -/
def skipFrom (extra : List Char) : Nat → List Char → List Char
  | _, [] => []
  | pending + 1, _ :: rest => skipFrom extra pending rest
  | 0, c :: rest =>
    if isUnreserved c || isDelimiter c || extra.contains c then skipFrom extra 0 rest
    else if c = '%' then
      match rest with
      | a :: b :: _ =>
        if (hexValue? a).isSome && (hexValue? b).isSome then skipFrom extra 2 rest
        else c :: rest
      | _ => c :: rest
    else c :: rest

/-- Passes over unreserved characters, delimiters, escapes and the characters of `extra`. -/
def skip (extra : List Char) (text : List Char) : List Char := skipFrom extra 0 text

/-- Passes over path characters and slashes. -/
def skipSegments (text : List Char) : List Char := skip [':', '@', '/'] text

/-- Passes over a path that is empty or starts with a slash. -/
def skipAbsoluteOrEmpty (text : List Char) : List Char :=
  match text with
  | '/' :: _ => skipSegments text
  | _ => text

/-- Passes over a host. -/
def skipHost? (text : List Char) : Option (List Char) :=
  match text with
  | '[' :: rest =>
    match rest.dropWhile (· ≠ ']') with
    | _ :: after => some after
    | [] => none
  | _ => some (skip [] text)

/-- Passes over a colon and the service number after it, if there is one. -/
def skipService? (text : List Char) : Option (List Char) :=
  match text with
  | ':' :: c :: rest => if isAsciiDigit c then some (rest.dropWhile isAsciiDigit) else none
  | [':'] => none
  | _ => some text

/-- Passes over an authority and the path after it. -/
def skipAuthority? (text : List Char) : Option (List Char) := do
  let afterUser := match skip [':'] text with
    | '@' :: rest => rest
    | _ => text
  let afterService ← (← skipHost? afterUser) |> skipService?
  some (skipAbsoluteOrEmpty afterService)

/-- What is left is a query and a fragment, both optional. -/
def endsReference (text : List Char) : Bool :=
  let afterQuery := match text with
    | '?' :: rest => skip [':', '@', '/', '?'] rest
    | _ => text
  let afterFragment := match afterQuery with
    | '#' :: rest => skip [':', '@', '/', '?', '[', ']'] rest
    | _ => afterQuery
  afterFragment.isEmpty

/-- Passes over an authority with its path, or over a path. In a path that starts without a
slash the first segment may have a colon only after a scheme. -/
def skipHierarchy? (afterScheme : Bool) (text : List Char) : Option (List Char) :=
  match text with
  | '/' :: '/' :: rest => skipAuthority? rest
  | '/' :: _ => some (skipSegments text)
  | _ =>
    if afterScheme then some (skipSegments text)
    else some (skipAbsoluteOrEmpty (skip ['@'] text))

/-- The text after a scheme and its colon. -/
def afterScheme? (text : List Char) : Option (List Char) :=
  match text with
  | c :: rest =>
    if isLetter c then
      match rest.dropWhile fun c => isLetter c || isAsciiDigit c || "+-.".toList.contains c with
      | ':' :: after => some after
      | _ => none
    else none
  | [] => none

/-- A text with a scheme, or one relative to another. -/
def isReference (uri : String) : Bool :=
  let text := uri.toList
  let whole := ((afterScheme? text).bind (skipHierarchy? true)).any endsReference
  whole || (skipHierarchy? false text).any endsReference

end GeoMetadata.Xml.Uri
