import GeoMetadata.Document.Node
import GeoMetadata.Path.Segment
import GeoMetadata.Text.Search
import GeoMetadata.Xml.Character
import GeoMetadata.Xml.Uri

/-!
# XML elements of a document

`Element.ofNode` resolves the names of a document tree.  A prefix stands for the URI of the
nearest declaration on the node or an ancestor; a name without prefix is in the nearest
default namespace if it names an element, and in none if it names an attribute.  A name may
also be given in expanded form, with its URI in braces.

The element remembers how its names are to be written: with the prefix of a declaration of
their URI that is in scope, or else with a new prefix, which it declares.  A declaration that
repeats one in scope is left out.
-/

namespace GeoMetadata.Xml

open Text

/-- Why a document is no XML document. -/
inductive BuildFault where
  /-- A prefix of a name is not declared. -/
  | undeclaredPrefix (declared name : String)
  /-- A name has characters that XML cannot carry. -/
  | notXmlText
  /-- A name is empty. -/
  | emptyName
  /-- A brace is not closed. -/
  | openBrace
  | elementName (name : String)
  | attributeName (name : String)
  | declaredPrefix (declared : String)
  | declaredUri (uri : String)
  deriving DecidableEq, Repr

/-- What is said about a document that is no XML document. -/
def BuildFault.message : BuildFault → String
  | .undeclaredPrefix declared _ => "Namespace prefix '" ++ declared ++ "' is not declared"
  | .notXmlText =>
    "All strings must be XML compatible: Unicode or ASCII, no NULL bytes or control characters"
  | .emptyName => "Empty tag name"
  | .openBrace => "Invalid tag name"
  | .elementName name => "Invalid tag name " ++ quoted name
  | .attributeName name => "Invalid attribute name " ++ quoted name
  | .declaredPrefix declared => "Invalid namespace prefix " ++ quoted declared
  | .declaredUri uri => "Invalid namespace URI " ++ quoted uri

/-- A namespace declaration: a prefix, or none for the default namespace, and a URI. -/
abbrev Declaration := Option String × String

/-- An expanded name: the URI of a namespace, if the name is in one, and the part of the name
within it. -/
structure Name where
  uri : Option String
  part : String
  deriving DecidableEq, Repr, Inhabited

/-- The expanded form of a name, with its URI in braces. -/
def Name.expanded (name : Name) : String :=
  match name.uri with
  | none => name.part
  | some uri => "\x7b" ++ uri ++ "\x7d" ++ name.part

/-- Reads a name that may have its URI in braces. -/
def Name.ofExpanded (text : String) : Except BuildFault Name :=
  if !isText text then .error .notXmlText
  else match text.toList with
    | [] => .error .emptyName
    | '\x7b' :: rest =>
      match cutAt '\x7d' rest with
      | (_, none) => .error .openBrace
      | (_, some []) => .error .emptyName
      | ([], some part) => .ok ⟨none, String.ofList part⟩
      | (uri, some part) => .ok ⟨some (String.ofList uri), String.ofList part⟩
    | _ => .ok ⟨none, text⟩

/-- An attribute of an element, with the prefix that its name is written with. -/
structure Attribute where
  name : Name
  shownPrefix : Option String
  value : String
  deriving DecidableEq, Repr, Inhabited

/-- An XML element, with the prefix that its name is written with. -/
structure Element where
  name : Name
  shownPrefix : Option String
  declarations : List Declaration
  attributes : List Attribute
  text : Option String
  children : List Element
  deriving Inhabited

/-! ## Resolving names -/

/-- The text that stands for a name once its prefix is resolved. -/
def resolve (scope : List Declaration) (isAttribute : Bool) (name : String) :
    Except BuildFault String :=
  match splitQualified name with
  | (some declared, part) =>
    match entryValue? (some declared) scope with
    | some uri => .ok (Name.expanded ⟨some uri, part⟩)
    | none => .error (.undeclaredPrefix declared name)
  | (none, _) =>
    match isAttribute, entryValue? none scope with
    | false, some uri => .ok (if uri = "" then name else Name.expanded ⟨some uri, name⟩)
    | _, _ => .ok name

/-! ## Choosing prefixes -/

/-- The namespace that the prefix `xml` always stands for. -/
def xmlNamespace : String := "http://www.w3.org/XML/1998/namespace"

/-- The prefixes that well-known namespaces get if they have none. -/
def customaryPrefixes : List (String × String) :=
  [("http://www.w3.org/1999/xhtml", "html"),
    ("http://www.w3.org/1999/XSL/Transform", "xsl"),
    ("http://www.w3.org/1999/02/22-rdf-syntax-ns#", "rdf"),
    ("http://schemas.xmlsoap.org/wsdl/", "wsdl"),
    ("http://www.w3.org/2001/XMLSchema", "xs"),
    ("http://www.w3.org/2001/XMLSchema-instance", "xsi"),
    ("http://purl.org/dc/elements/1.1/", "dc")]

/-- The written declarations of an element and of its ancestors, nearest first. -/
abbrev Frames := List (List Declaration)

/-- The URI that a prefix stands for. -/
def Frames.find? (frames : Frames) (declared : Option String) : Option String :=
  if declared = some "xml" then some xmlNamespace
  else frames.findSome? (entryValue? declared)

/-- The frames with one more declaration on the nearest element. -/
def Frames.declare (frames : Frames) (declaration : Declaration) : Frames :=
  match frames with
  | [] => [[declaration]]
  | own :: outer => (own ++ [declaration]) :: outer

/-- The prefix of the nearest declaration of a URI that is in scope. An attribute needs a
declaration with a prefix. -/
def Frames.prefixFor? (isAttribute : Bool) (uri : String) : Frames → Option (Option String)
  | [] => none
  | own :: outer =>
    let isOwn (declaration : Declaration) : Bool :=
      declaration.2 = uri && declaration.1 ≠ some "xml" && !(isAttribute && declaration.1.isNone)
    match own.find? isOwn with
    | some declaration => some declaration.1
    | none => (Frames.prefixFor? isAttribute uri outer).filter fun declared =>
        (entryValue? declared own).isNone

/-- The prefix with a number. -/
def numberedPrefix (n : Nat) : String := "ns" ++ toString n

/-- A prefix that stands for nothing yet, and the number to go on with. -/
def newPrefix (frames : Frames) (uri : String) (next : Nat) : String × Nat :=
  let isFree (declared : String) : Bool := (frames.find? (some declared)).isNone
  let numbered : String × Nat :=
    match (List.range (frames.flatten.length + 1)).find? fun n => isFree (numberedPrefix (next + n)) with
    | some n => (numberedPrefix (next + n), next + n + 1)
    | none => (numberedPrefix next, next + 1)
  match entryValue? uri customaryPrefixes with
  | some customary => if isFree customary then (customary, next) else numbered
  | none => numbered

/-- The prefix to write a name of a URI with, which is declared on the nearest element if it
is new. -/
def choosePrefix (isAttribute : Bool) (uri : String) (frames : Frames) (next : Nat) :
    Option String × Frames × Nat :=
  if uri = xmlNamespace then (some "xml", frames, next)
  else match frames.prefixFor? isAttribute uri with
    | some declared => (declared, frames, next)
    | none =>
      let (declared, next) := newPrefix frames uri next
      (some declared, frames.declare (some declared, uri), next)

/-! ## Building elements -/

/-- The frames with the declarations of a node, of which those that repeat one in scope are
left out. -/
def addDeclarations : List Declaration → Frames → Except BuildFault Frames
  | [], frames => .ok frames
  | (declared, uri) :: rest, frames => do
    if !isText uri then .error .notXmlText
    if !Uri.isReference uri then .error (.declaredUri uri)
    if let some name := declared then
      if !isText name then .error .notXmlText
      if !isNamePart name then .error (.declaredPrefix name)
    addDeclarations rest
      (if frames.find? declared = some uri then frames else frames.declare (declared, uri))

/-- The attributes with one more; a second attribute of one name replaces the value of the
first. -/
def setAttribute (new : Attribute) : List Attribute → List Attribute
  | [] => [new]
  | old :: rest =>
    if old.name = new.name then { old with value := new.value } :: rest
    else old :: setAttribute new rest

/-- The attributes of an element, and the frames and the next number after them. -/
def buildAttributes (scope : List Declaration) :
    List (String × String) → List Attribute → Frames → Nat →
      Except BuildFault (List Attribute × Frames × Nat)
  | [], done, frames, next => .ok (done, frames, next)
  | (key, value) :: rest, done, frames, next => do
    let name ← Name.ofExpanded (← resolve scope true key)
    if !isNamePart name.part then .error (.attributeName name.part)
    let (shown, frames, next) := match name.uri with
      | none => (none, frames, next)
      | some uri => choosePrefix true uri frames next
    buildAttributes scope rest (setAttribute ⟨name, shown, safe value⟩ done) frames next

/-- The parts of an element but for its children. -/
structure Head where
  name : Name
  shownPrefix : Option String
  attributes : List Attribute
  frames : Frames
  next : Nat

/-- The name, declarations and attributes of the element of a node. -/
def buildHead (node : Node) (scope : List Declaration) (outer : Frames) (next : Nat) :
    Except BuildFault Head := do
  let name ← Name.ofExpanded (← resolve scope false node.name)
  if !isNamePart name.part then .error (.elementName name.part)
  let frames ← addDeclarations node.declarations ([] :: outer)
  let (shown, frames, next) ← match name.uri with
    | none => pure (none, frames, next)
    | some uri =>
      if !Uri.isReference uri then .error (.declaredUri uri)
      else pure (choosePrefix false uri frames next)
  let (attributes, frames, next) ← buildAttributes scope node.plainAttributes [] frames next
  .ok ⟨name, shown, attributes, frames, next⟩

namespace Element

mutual

/-- The element of a node below the declarations of `scope`, and the next number for a new
prefix. -/
def build (scope : List Declaration) (outer : Frames) (next : Nat) :
    Node → Except BuildFault (Element × Nat)
  | ⟨name, index, text, attributes, children⟩ => do
    let node : Node := ⟨name, index, text, attributes, []⟩
    let scope := node.declarations ++ scope
    let head ← buildHead node scope outer next
    let (children, next) ← buildAll scope head.frames head.next children
    .ok (⟨head.name, head.shownPrefix, head.frames.headD [], head.attributes, text.map safe,
      children⟩, next)

/-- The elements of some nodes below the declarations of `scope`. -/
def buildAll (scope : List Declaration) (outer : Frames) (next : Nat) :
    List Node → Except BuildFault (List Element × Nat)
  | [] => .ok ([], next)
  | node :: rest => do
    let (first, next) ← build scope outer next node
    let (others, next) ← buildAll scope outer next rest
    .ok (first :: others, next)

end

/-- The XML element of a document tree. -/
def ofNode (root : Node) : Except BuildFault Element := (build [] [] 0 root).map Prod.fst

end Element

end GeoMetadata.Xml
