import GeoMetadata.Number.Binary64
import GeoMetadata.Text.Digits

/-!
# Reading a number from text

`readNumber?` reads a whole text as a number: an optional sign, then decimal digits with at
most one point and an optional exponent, or one of the words for infinity and NaN in any
case.  `readMeasure?` also takes hexadecimal digits with an optional binary exponent, and
passes over white space in front.
-/

namespace GeoMetadata.Number

open Text

/-- The ASCII digits that a text starts with, and the rest. -/
def spanDigits (text : List Char) : List Char × List Char := text.span isAsciiDigit

/-- An exponent: an optional sign and at least one digit, to the end of the text. -/
def readExponent? (text : List Char) : Option Int :=
  let (negative, digits) := match text with
    | '-' :: rest => (true, rest)
    | '+' :: rest => (false, rest)
    | rest => (false, rest)
  if digits ≠ [] ∧ digits.all isAsciiDigit then
    let n : Int := ofAsciiDigits digits
    some (if negative then -n else n)
  else none

/-- A decimal numeral without its sign: digits, of which a point may stand before, between
or after, and an optional exponent. -/
def readUnsigned? (negative : Bool) (text : List Char) : Option Binary64 :=
  let (whole, afterWhole) := spanDigits text
  let (fraction, rest) := match afterWhole with
    | '.' :: afterPoint => spanDigits afterPoint
    | other => ([], other)
  if whole = [] ∧ fraction = [] then none
  else
    let exponent? : Option Int := match rest with
      | [] => some 0
      | c :: tail => if c = 'e' ∨ c = 'E' then readExponent? tail else none
    exponent?.map fun (e : Int) =>
      .ofDecimal negative (ofAsciiDigits (whole ++ fraction)) (e - fraction.length)

/-- The words for numbers that have no digits. -/
def readWord? (negative : Bool) (text : List Char) : Option Binary64 :=
  let word := text.map Char.toLower
  if word = "inf".toList ∨ word = "infinity".toList then some (.infinite negative)
  else if word = "nan".toList then some .nan
  else none

/-- The sign of a text and the rest. -/
def splitSign : List Char → Bool × List Char
  | '-' :: rest => (true, rest)
  | '+' :: rest => (false, rest)
  | rest => (false, rest)

/-- Reads a whole text as a number. -/
def readNumber? (text : List Char) : Option Binary64 :=
  let (negative, rest) := splitSign text
  readUnsigned? negative rest <|> readWord? negative rest

/-- Hexadecimal digits with an optional point and an optional binary exponent. -/
def readHexadecimal? (negative : Bool) (text : List Char) : Option Binary64 :=
  let isHex (c : Char) : Bool := (hexValue? c).isSome
  let (whole, afterWhole) := text.span isHex
  let (fraction, rest) := match afterWhole with
    | '.' :: afterPoint => afterPoint.span isHex
    | other => ([], other)
  if whole = [] ∧ fraction = [] then none
  else
    let exponent? : Option Int := match rest with
      | [] => some 0
      | c :: tail => if c = 'p' ∨ c = 'P' then readExponent? tail else none
    exponent?.map fun (e : Int) =>
      let digits := ((whole ++ fraction).filterMap hexValue?).foldl (fun n d => 16 * n + d) 0
      let scale : Int := max (-3000) (min 3000 (e - 4 * fraction.length))
      let scaled := scaleTwo digits scale
      .ofRatio negative scaled.1 scaled.2

/-- The white space that may stand before a measure. -/
def isMeasureSpace (c : Char) : Bool := c = ' ' || ('\t' ≤ c && c ≤ '\r')

/-- Reads a whole text as a measure: a number, possibly in hexadecimal. -/
def readMeasure? (text : List Char) : Option Binary64 :=
  let (negative, rest) := splitSign (text.dropWhile isMeasureSpace)
  match rest with
  | '0' :: x :: tail =>
    if x = 'x' ∨ x = 'X' then readHexadecimal? negative tail
    else readUnsigned? negative rest
  | _ => readUnsigned? negative rest <|> readWord? negative rest

end GeoMetadata.Number
