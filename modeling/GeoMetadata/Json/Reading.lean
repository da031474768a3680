import GeoMetadata.Number.Integer
import GeoMetadata.Number.Numeral
import GeoMetadata.Value

/-!
# Reading JSON

The reader takes the whole of JSON and the words `NaN`, `Infinity` and `-Infinity`.  Numbers
without fraction and exponent are integers of any size up to the limit of digits.  Of two
members with one name the later gives the value.  A fault names the place where reading
stopped.  The texts of values are made of characters, so an escape for half of a character,
without the other half, has no text of its own: it is read as the replacement character.
-/

namespace GeoMetadata.Json

open Number Text

/-- What is missing or wrong in a text that is no JSON. -/
inductive Complaint where
  | value
  | propertyName
  | colon
  | comma
  | extraData
  | openString
  | controlCharacter
  | escape
  | unicodeEscape
  | byteOrderMark
  deriving DecidableEq, Repr

/-- What is said about a text that is no JSON. -/
def Complaint.message : Complaint → String
  | .value => "Expecting value"
  | .propertyName => "Expecting property name enclosed in double quotes"
  | .colon => "Expecting ':' delimiter"
  | .comma => "Expecting ',' delimiter"
  | .extraData => "Extra data"
  | .openString => "Unterminated string starting at"
  | .controlCharacter => "Invalid control character at"
  | .escape => "Invalid \\escape"
  | .unicodeEscape => "Invalid \\uXXXX escape"
  | .byteOrderMark => "Unexpected UTF-8 BOM (decode using utf-8-sig)"

/-- Why reading stopped: a complaint with the number of characters from its place to the end,
or an integer that is too long. -/
inductive Stop where
  | complaint (what : Complaint) (left : Nat)
  | integer (fault : IntegerFault)
  deriving DecidableEq, Repr

/-- A part that has been read, and the characters after it. -/
abbrev Read (α : Type) := Except Stop (α × List Char)

/-- A complaint about the place where some characters are left. -/
def complain {α : Type} (complaint : Complaint) (rest : List Char) : Except Stop α :=
  .error (.complaint complaint rest.length)

/-- White space. -/
def isSpace (c : Char) : Bool := c = ' ' || c = '\t' || c = '\n' || c = '\r'

/-- The characters after white space. -/
def skipSpace (text : List Char) : List Char := text.dropWhile isSpace

/-! ## Strings -/

/-- The number that four hexadecimal digits denote. -/
def hexFour? : List Char → Option Nat
  | [a, b, c, d] => do
    some ((((← hexValue? a) * 16 + (← hexValue? b)) * 16 + (← hexValue? c)) * 16 + (← hexValue? d))
  | _ => none

/-- The character that an escape of one letter stands for. -/
def escaped? : Char → Option Char
  | '"' => some '"'
  | '\\' => some '\\'
  | '/' => some '/'
  | 'b' => some '\x08'
  | 'f' => some '\x0c'
  | 'n' => some '\n'
  | 'r' => some '\r'
  | 't' => some '\t'
  | _ => none

/-- The first half of a pair of surrogates. -/
def isHighHalf (n : Nat) : Bool := 0xD800 ≤ n && n ≤ 0xDBFF

/-- The second half of a pair of surrogates. -/
def isLowHalf (n : Nat) : Bool := 0xDC00 ≤ n && n ≤ 0xDFFF

/-- The character of a code. Half of a character alone is read as the replacement character. -/
def characterOf (n : Nat) : Char :=
  if isHighHalf n || isLowHalf n then Char.ofNat 0xFFFD else Char.ofNat n

/-- An escape by code, given the characters after its `u`: the character it stands for and
the number of characters it takes up. Two escapes may give the halves of one character.
Something must follow the escape. -/
def unicodeEscape (rest : List Char) : Except Stop (Char × Nat) :=
  if rest.length ≤ 4 then .error (.complaint .unicodeEscape (rest.length + 1))
  else match hexFour? (rest.take 4) with
    | none => .error (.complaint .unicodeEscape (rest.length + 1))
    | some code =>
      let after := rest.drop 4
      if isHighHalf code && 6 < after.length && after.take 2 == ['\\', 'u'] then
        match hexFour? ((after.drop 2).take 4) with
        | none => .error (.complaint .unicodeEscape (after.length - 1))
        | some low =>
          if isLowHalf low then
            .ok (Char.ofNat (0x10000 + (code - 0xD800) * 0x400 + (low - 0xDC00)), 10)
          else .ok (characterOf code, 4)
      else .ok (characterOf code, 4)

/-- Reads a string up to its closing quote. `start` is the number of characters left at its
opening quote, `skip` the number of characters to pass over, and `done` the string so far in
reverse order. -/
def stringFrom (start : Nat) (done : List Char) : Nat → List Char → Read String
  | _, [] => .error (.complaint .openString start)
  | skip + 1, _ :: rest => stringFrom start done skip rest
  | 0, c :: rest =>
    if c = '"' then .ok (String.ofList done.reverse, rest)
    else if c = '\\' then
      match rest with
      | [] => .error (.complaint .openString start)
      | 'u' :: code =>
        match unicodeEscape code with
        | .error stop => .error stop
        | .ok (character, length) => stringFrom start (character :: done) (length + 1) rest
      | letter :: _ =>
        match escaped? letter with
        | some character => stringFrom start (character :: done) 1 rest
        | none => complain .escape (c :: rest)
    else if c.toNat < 0x20 then complain .controlCharacter (c :: rest)
    else stringFrom start (c :: done) 0 rest

/-- Reads a string after its opening quote. -/
def string (rest : List Char) : Read String := stringFrom (rest.length + 1) [] 0 rest

/-! ## Numbers -/

/-- The fraction that a text starts with: a point and at least one digit. -/
def spanFraction (text : List Char) : List Char × List Char :=
  match text with
  | '.' :: rest =>
    match rest.span isAsciiDigit with
    | ([], _) => ([], text)
    | (digits, after) => ('.' :: digits, after)
  | _ => ([], text)

/-- The exponent that a text starts with: its letter, an optional sign and at least one
digit. -/
def spanExponent (text : List Char) : List Char × List Char :=
  match text with
  | letter :: rest =>
    if letter = 'e' ∨ letter = 'E' then
      let (sign, unsigned) := match rest with
        | '+' :: after => (['+'], after)
        | '-' :: after => (['-'], after)
        | after => ([], after)
      match unsigned.span isAsciiDigit with
      | ([], _) => ([], text)
      | (digits, after) => (letter :: sign ++ digits, after)
    else ([], text)
  | [] => ([], text)

/-- The whole part that a text starts with: a zero, or digits of which the first is none. -/
def spanWhole (text : List Char) : List Char × List Char :=
  match text with
  | '0' :: rest => (['0'], rest)
  | _ => text.span isAsciiDigit

/-- Reads a number. -/
def number (text : List Char) : Read Value :=
  let (negative, unsigned) := match text with
    | '-' :: rest => (true, rest)
    | _ => (false, text)
  let (whole, afterWhole) := spanWhole unsigned
  let (fraction, afterFraction) := spanFraction afterWhole
  let (exponent, rest) := spanExponent afterFraction
  if whole = [] then complain .value text
  else if fraction = [] ∧ exponent = [] then
    match readNatural (String.ofList whole) with
    | .ok n => .ok (.int (if negative then -(n : Int) else n), rest)
    | .error fault => .error (.integer fault)
  else match readUnsigned? negative (whole ++ fraction ++ exponent) with
    | some x => .ok (.float x, rest)
    | none => complain .value text

/-! ## Values -/

/-- The values that are written as words. -/
def words : List (List Char × Value) :=
  [("null".toList, .null), ("true".toList, .bool true), ("false".toList, .bool false),
    ("NaN".toList, .float .nan), ("Infinity".toList, .float (.infinite false)),
    ("-Infinity".toList, .float (.infinite true))]

/-- Reads a word, or else a number. -/
def wordOrNumber (text : List Char) : Read Value :=
  match words.find? fun entry => entry.1.isPrefixOf text with
  | some (word, value) => .ok (value, text.drop word.length)
  | none => number text

mutual

/-- Reads a value. Each level of nesting takes two steps of `fuel`, and each further item one. -/
def value : Nat → List Char → Read Value
  | 0, text => complain .value text
  | fuel + 1, text =>
    match text with
    | '"' :: rest => (string rest).map fun (s, after) => (.text s, after)
    | '\x7b' :: rest =>
      match skipSpace rest with
      | '\x7d' :: after => .ok (.map [], after)
      | inner => (members fuel inner []).map fun (entries, after) => (.map entries, after)
    | '[' :: rest =>
      match skipSpace rest with
      | ']' :: after => .ok (.list [], after)
      | inner => (elements fuel inner []).map fun (items, after) => (.list items, after)
    | _ => wordOrNumber text

/-- Reads the members of an object up to its closing brace, after those read before. -/
def members : Nat → List Char → List (Value × Value) → Read (List (Value × Value))
  | 0, text, _ => complain .propertyName text
  | fuel + 1, text, done =>
    match text with
    | '"' :: rest =>
      match string rest with
      | .error stop => .error stop
      | .ok (name, afterName) =>
        match skipSpace afterName with
        | ':' :: afterColon =>
          match value fuel (skipSpace afterColon) with
          | .error stop => .error stop
          | .ok (member, afterValue) =>
            let done := Value.setEntry (.text name) member done
            match skipSpace afterValue with
            | '\x7d' :: after => .ok (done, after)
            | ',' :: after => members fuel (skipSpace after) done
            | other => complain .comma other
        | other => complain .colon other
    | _ => complain .propertyName text

/-- Reads the elements of an array up to its closing bracket, after those read before, which
are given in reverse order. -/
def elements : Nat → List Char → List Value → Read (List Value)
  | 0, text, _ => complain .value text
  | fuel + 1, text, done =>
    match value fuel text with
    | .error stop => .error stop
    | .ok (element, afterValue) =>
      match skipSpace afterValue with
      | ']' :: after => .ok ((element :: done).reverse, after)
      | ',' :: after => elements fuel (skipSpace after) (element :: done)
      | other => complain .comma other

end

/-! ## Texts -/

/-- Why a text is no JSON: a complaint and its position, or an integer that is too long. -/
inductive Fault where
  | complaint (what : Complaint) (line column position : Nat)
  | integer (fault : IntegerFault)
  deriving DecidableEq, Repr

/-- What is said about a text that is no JSON. -/
def Fault.message : Fault → String
  | .complaint what line column position =>
    what.message ++ ": line " ++ toString line ++ " column " ++ toString column ++ " (char "
      ++ toString position ++ ")"
  | .integer fault => fault.message

/-- The fault of a text at which reading stopped. -/
def Fault.ofStop (text : List Char) : Stop → Fault
  | .integer fault => .integer fault
  | .complaint what left =>
    let before := text.take (text.length - left)
    .complaint what (before.count '\n' + 1)
      ((before.reverse.takeWhile (· ≠ '\n')).length + 1) before.length

/-- The steps that reading a text takes at most: a level of nesting takes up a character at
least, and so does the comma before a further item. -/
def fuelFor (text : List Char) : Nat := 2 * text.length + 1

/-- Reads a value and nothing after it. -/
def document (text : List Char) : Except Stop Value :=
  if text.head? = some (Char.ofNat 0xFEFF) then complain .byteOrderMark text
  else match value (fuelFor text) (skipSpace text) with
    | .error stop => .error stop
    | .ok (found, after) =>
      match skipSpace after with
      | [] => .ok found
      | rest => complain .extraData rest

/-- The value of a text. -/
def read (text : List Char) : Except Fault Value := (document text).mapError (Fault.ofStop text)

end GeoMetadata.Json
