import GeoMetadata.Proofs.Xml.Naming
import GeoMetadata.Text.Utf8
import GeoMetadata.Xml.Writing

/-!
# Reading XML

What a text stands for by the rules of XML 1.0 with namespaces, for documents that are made of
elements, attributes and texts alone.  Anything else in angle brackets (comments, processing
instructions, marked sections, document types) is refused, and so is whatever breaks a rule.

Line ends are normalized first.  Then a text is read in three steps:

* `tokens?` cuts it into tags and the texts between them.  A less-than sign stands at the start of a
  tag and nowhere else, so that it is enough to cut there;
* `markup?` nests what stands between a tag and the one that closes it, and replaces the references
  in texts;
* `resolve?` puts the names in the namespaces that are declared around them.
-/

namespace GeoMetadata.Xml

open Text

/-! ## Characters and references -/

/-- White space. -/
def isSpace (c : Char) : Bool := c == ' ' || c == '\t' || c == '\n' || c == '\r'

/-- A character of a name, which may have a prefix. -/
def isNameLetter (c : Char) : Bool := isNameCharacter c || c == ':'

/-- The name is a name part, or two of them with a colon between. -/
def isPrefixedName (name : String) : Bool :=
  match splitQualified name with
  | (none, part) => isNamePart part
  | (some declared, part) => isNamePart declared && isNamePart part

/-- The entities that need no declaration. -/
def entities : List (String × Char) :=
  [("amp", '&'), ("lt", '<'), ("gt", '>'), ("quot", '"'), ("apos", '\x27')]

/-- The value of a decimal digit. -/
def decimalValue? (c : Char) : Option Nat :=
  if isAsciiDigit c then some (asciiDigitValue c) else none

/-- The character whose number has these digits to a base. -/
def numberedCharacter? (base : Nat) (value? : Char → Option Nat) (digits : List Char) :
    Option Char := do
  let values ← digits.mapM value?
  let c := Char.ofNat (values.foldl (fun n digit => base * n + digit) 0)
  if digits ≠ [] ∧ isCharacter c then some c else none

/-- The character that a reference stands for, given what is between its ampersand and semicolon. -/
def referent? (reference : List Char) : Option Char :=
  match reference with
  | '#' :: 'x' :: digits => numberedCharacter? 16 hexValue? digits
  | '#' :: digits => numberedCharacter? 10 decimalValue? digits
  | name => entryValue? (String.ofList name) entities

/-- What stands after an ampersand, with the reference replaced. -/
def dereference? (piece : List Char) : Option (List Char) :=
  match cutAt ';' piece with
  | (reference, some after) => (referent? reference).map fun c => c :: after
  | (_, none) => none

/-- The text with its references replaced. -/
def unescape? (text : List Char) : Option (List Char) :=
  match splitAt '&' text with
  | [] => none
  | first :: pieces => (pieces.mapM dereference?).map fun others => first ++ others.flatten

/-- The text that character data stands for. -/
def textOf? (raw : List Char) : Option String :=
  if contains "]]>".toList raw then none else (unescape? raw).map String.ofList

/-- A space for each character of white space. -/
def spaceFor (c : Char) : Char := if isSpace c then ' ' else c

/-- The value that an attribute value stands for. White space is normalized where it is no
reference. -/
def valueOf? (raw : List Char) : Option String :=
  (unescape? (raw.map spaceFor)).map String.ofList

/-! ## Tags -/

/-- A tag, or a text as it is written. -/
inductive Token where
  | opening (name : String) (attributes : List (String × String))
  | closing (name : String)
  | text (raw : List Char)
  deriving DecidableEq, Repr

/-- Reads an attribute and gives what follows it. -/
def readAttribute? (text : List Char) : Option ((String × String) × List Char) :=
  let name := String.ofList (text.takeWhile isNameLetter)
  match (text.dropWhile isNameLetter).dropWhile isSpace with
  | '=' :: afterSign =>
    match afterSign.dropWhile isSpace with
    | quote :: afterQuote =>
      if isPrefixedName name ∧ (quote = '"' ∨ quote = '\x27') then
        match cutAt quote afterQuote with
        | (raw, some after) => (valueOf? raw).map fun value => ((name, value), after)
        | (_, none) => none
      else none
    | [] => none
  | _ => none

theorem length_lt_of_readAttribute? {text after : List Char} {entry : String × String}
    (h : readAttribute? text = some (entry, after)) : after.length < text.length := by
  have hdrop (p : Char → Bool) (chars : List Char) : (chars.dropWhile p).length ≤ chars.length :=
    (List.dropWhile_suffix p).length_le
  simp only [readAttribute?] at h
  split at h
  · rename_i afterSign hsign
    have hsigned := congrArg List.length hsign
    split at h
    · rename_i quote afterQuote hquote
      have hquoted := congrArg List.length hquote
      split at h
      · split at h
        · rename_i raw rest hcut
          obtain ⟨value, -, heq⟩ := Option.map_eq_some_iff.mp h
          obtain ⟨-, rfl⟩ := Prod.mk.inj heq
          have hlength := congrArg List.length (eq_append_of_cutAt_eq_some hcut)
          have hname := hdrop isNameLetter text
          have hspace := hdrop isSpace (text.dropWhile isNameLetter)
          have hinner := hdrop isSpace afterSign
          simp only [List.length_cons, List.length_append] at hsigned hquoted hlength
          omega
        · nomatch h
      · nomatch h
    · nomatch h
  · nomatch h

/-- Reads attributes, each after white space, to the end of the tag. Says whether the element is
empty, and gives what follows the tag. -/
def readAttributes? (text : List Char) : Option (List (String × String) × Bool × List Char) :=
  match text.dropWhile isSpace with
  | '>' :: after => some ([], false, after)
  | '/' :: '>' :: after => some ([], true, after)
  | _ =>
    if text.head?.any isSpace then
      match _h : readAttribute? (text.dropWhile isSpace) with
      | some (first, rest) => (readAttributes? rest).map fun (others, isEmpty, after) =>
          (first :: others, isEmpty, after)
      | none => none
    else none
  termination_by text.length
  decreasing_by
    exact Nat.lt_of_lt_of_le (length_lt_of_readAttribute? _h)
      (List.dropWhile_suffix isSpace).length_le

/-- The token of a text that is not empty. -/
def textTokens (raw : List Char) : List Token := if raw = [] then [] else [.text raw]

/-- The tokens of a start tag, which is the end tag as well if the element is empty. -/
def startTokens (name : String) (attributes : List (String × String)) (isEmpty : Bool) :
    List Token := .opening name attributes :: if isEmpty then [.closing name] else []

/-- The tag that stands between a less-than sign and the next one, and the text after it. -/
def tagTokens? (piece : List Char) : Option (List Token) :=
  match piece with
  | '/' :: rest =>
    match (rest.dropWhile isNameLetter).dropWhile isSpace with
    | '>' :: after =>
      some (.closing (String.ofList (rest.takeWhile isNameLetter)) :: textTokens after)
    | _ => none
  | _ =>
    let name := String.ofList (piece.takeWhile isNameLetter)
    match readAttributes? (piece.dropWhile isNameLetter) with
    | some (attributes, isEmpty, after) =>
      if isPrefixedName name ∧ (attributes.map Prod.fst).Nodup then
        some (startTokens name attributes isEmpty ++ textTokens after)
      else none
    | none => none

/-- The tags and texts of a text. -/
def tokens? (text : List Char) : Option (List Token) :=
  match splitAt '<' text with
  | [] => none
  | first :: pieces => (pieces.mapM tagTokens?).map fun others => textTokens first ++ others.flatten

/-! ## Nesting -/

/-- An element or a text, with the names as they are written. -/
inductive Markup where
  | element (name : String) (attributes : List (String × String)) (content : List Markup)
  | text (text : String)

/-- An element that is not closed yet. -/
structure OpenElement where
  name : String
  attributes : List (String × String)
  content : List Markup

/-- The element with more content. -/
def OpenElement.add (outer : OpenElement) (content : List Markup) : OpenElement :=
  { outer with content := outer.content ++ content }

/-- The open elements after one more token, innermost first. The outermost stands for the document,
in which there is only white space beside elements. -/
def nest? : List OpenElement → Token → Option (List OpenElement)
  | opened, .opening name attributes => some (⟨name, attributes, []⟩ :: opened)
  | inner :: outer :: rest, .closing name =>
    if inner.name = name then
      some (outer.add [.element name inner.attributes inner.content] :: rest)
    else none
  | inner :: outer :: rest, .text raw =>
    (textOf? raw).map fun text => inner.add [.text text] :: outer :: rest
  | [document], .text raw => if raw.all isSpace then some [document] else none
  | _, _ => none

/-- The element that stands for the document. -/
def outermost : OpenElement := ⟨"", [], []⟩

/-- The root element of some tokens. -/
def markup? (tokens : List Token) : Option Markup :=
  match tokens.foldlM nest? [outermost] with
  | some [⟨_, _, [root]⟩] => some root
  | _ => none

/-! ## Namespaces -/

/-- An element or a text. Elements and attributes have expanded names and the prefixes that they are
written with. -/
inductive Item where
  | element (name : Name) (shownPrefix : Option String) (declarations : List Declaration)
      (attributes : List Attribute) (content : List Item)
  | text (text : String)

/-- The namespace of the attributes that declare namespaces. -/
def declaringNamespace : String := "http://www.w3.org/2000/xmlns/"

/-- The prefix may be declared for the URI. -/
def isAllowed : Declaration → Bool
  | (none, uri) => uri != xmlNamespace && uri != declaringNamespace
  | (some declared, uri) =>
    declared != "xmlns" && uri != "" && uri != declaringNamespace
      && ((declared == "xml") == (uri == xmlNamespace))

/-- The URI that a prefix stands for. -/
def uriOf? (scope : List Declaration) (declared : String) : Option String :=
  if declared = "xml" then some xmlNamespace else entryValue? (some declared) scope

/-- The namespace of names of elements without prefix. -/
def defaultUri? (scope : List Declaration) : Option String :=
  (entryValue? none scope).filter (· ≠ "")

/-- The expanded form of a name. -/
def expand? (scope : List Declaration) (isAttribute : Bool) (name : String) : Option Name :=
  match splitQualified name with
  | (some declared, part) => (uriOf? scope declared).map fun uri => ⟨some uri, part⟩
  | (none, part) => some ⟨if isAttribute then none else defaultUri? scope, part⟩

/-- The attributes with their names expanded, which must be different. -/
def expandAttributes? (scope : List Declaration) (attributes : List (String × String)) :
    Option (List Attribute) := do
  let expanded ← attributes.mapM fun (name, value) =>
    (expand? scope true name).map fun found => ⟨found, (splitQualified name).1, value⟩
  if (expanded.map Attribute.name).Nodup then some expanded else none

/-- The namespaces that some attributes declare. -/
def declaredBy (attributes : List (String × String)) : List Declaration :=
  attributes.filterMap fun (name, value) =>
    (Node.declaredPrefix? name).map fun declared => (declared, value)

/-- The attributes that declare no namespace. -/
def plainOf (attributes : List (String × String)) : List (String × String) :=
  attributes.filter fun (name, _) => (Node.declaredPrefix? name).isNone

mutual

/-- The markup with its names put in namespaces. -/
def resolve? (scope : List Declaration) : Markup → Option Item
  | .text text => some (.text text)
  | .element name attributes content => do
    let declarations := declaredBy attributes
    let scope := declarations ++ scope
    if declarations.all isAllowed then
      some (.element (← expand? scope false name) (splitQualified name).1 declarations
        (← expandAttributes? scope (plainOf attributes)) (← resolveAll? scope content))
    else none

/-- Some markup with its names put in namespaces. -/
def resolveAll? (scope : List Declaration) : List Markup → Option (List Item)
  | [] => some []
  | first :: rest => do some ((← resolve? scope first) :: (← resolveAll? scope rest))

end

section Resolving

variable {scope : List Declaration} {name : String} {attributes : List (String × String)}
  {content : List Markup} {item : Item}

theorem resolve?_element_eq_some_iff :
    resolve? scope (.element name attributes content) = some item ↔
      (declaredBy attributes).all isAllowed = true ∧
        ∃ found shown items, expand? (declaredBy attributes ++ scope) false name = some found ∧
          expandAttributes? (declaredBy attributes ++ scope) (plainOf attributes) = some shown ∧
          resolveAll? (declaredBy attributes ++ scope) content = some items ∧
          item = .element found (splitQualified name).1 (declaredBy attributes) shown items := by
  rw [resolve?]
  split
  · rename_i hallowed
    simp only [hallowed, true_and, Option.bind_eq_bind, Option.bind_eq_some_iff, Option.some.injEq]
    constructor
    · rintro ⟨found, hfound, shown, hshown, items, hitems, rfl⟩
      exact ⟨found, shown, items, hfound, hshown, hitems, rfl⟩
    · rintro ⟨found, shown, items, hfound, hshown, hitems, rfl⟩
      exact ⟨found, hfound, shown, hshown, items, hitems, rfl⟩
  · rename_i hallowed
    simp only [hallowed, false_and, reduceCtorEq]

theorem resolveAll?_cons_eq_some_iff {first : Markup} {items : List Item} :
    resolveAll? scope (first :: content) = some items ↔
      ∃ item others, resolve? scope first = some item ∧ resolveAll? scope content = some others ∧
        items = item :: others := by
  rw [resolveAll?]
  simp only [Option.bind_eq_bind, Option.bind_eq_some_iff, Option.some.injEq]
  constructor
  · rintro ⟨item, hitem, others, hothers, rfl⟩
    exact ⟨item, others, hitem, hothers, rfl⟩
  · rintro ⟨item, others, hitem, hothers, rfl⟩
    exact ⟨item, hitem, others, hothers, rfl⟩

theorem resolveAll?_append {first second : List Markup} {before after : List Item}
    (hfirst : resolveAll? scope first = some before)
    (hsecond : resolveAll? scope second = some after) :
    resolveAll? scope (first ++ second) = some (before ++ after) := by
  induction first generalizing before with
  | nil =>
      obtain rfl := Option.some.inj hfirst
      exact hsecond
  | cons markup rest ih =>
      obtain ⟨item, others, hitem, hothers, rfl⟩ := resolveAll?_cons_eq_some_iff.mp hfirst
      exact resolveAll?_cons_eq_some_iff.mpr ⟨item, _, hitem, ih hothers, rfl⟩

end Resolving

/-- The element that a text of XML stands for. -/
def read? (text : String) : Option Item := do
  let chars := Utf8.breakLines text.toList
  if chars.all isCharacter then resolve? [] (← markup? (← tokens? chars)) else none

end GeoMetadata.Xml
