import GeoMetadata.OrderedMap
import GeoMetadata.Number.Integer

/-!
# Document trees

A node of a document has a name, its occurrence index among the siblings of that name,
attributes in the order of their first assignment, an optional text, and children in the
order of their creation.  Children are found by name and index.
-/

namespace GeoMetadata

/-- A node of a document tree. -/
structure Node where
  name : String
  index : Int
  text : Option String
  attributes : OrderedMap String String
  children : List Node
  deriving Inhabited

namespace Node

/-- A node without attributes, text and children. -/
def leaf (name : String) (index : Int) : Node := ⟨name, index, none, .empty, []⟩

/-- The node has this name and index. -/
def answersTo (node : Node) (name : String) (index : Int) : Bool :=
  node.name == name && node.index == index

/-- The first child with this name and index. -/
def findChild? (node : Node) (name : String) (index : Int) : Option Node :=
  node.children.find? (·.answersTo name index)

/-- The nodes with `change` applied to the first that has this name and index. If there is
none, a new one is changed and put at the end. -/
def changeFirst (name : String) (index : Int) (change : Node → Node) : List Node → List Node
  | [] => [change (leaf name index)]
  | node :: rest =>
    if node.answersTo name index then change node :: rest
    else node :: changeFirst name index change rest

/-- The node with `change` applied to the child with this name and index, which is created
if it is missing. -/
def changeChild (node : Node) (name : String) (index : Int) (change : Node → Node) : Node :=
  { node with children := changeFirst name index change node.children }

/-- The node with a child of this name and index. -/
def withChild (node : Node) (name : String) (index : Int) : Node :=
  node.changeChild name index id

/-- The node with a value for an attribute. -/
def withAttribute (node : Node) (name value : String) : Node :=
  { node with attributes := node.attributes.insert name value }

/-- The node with a text. -/
def withText (node : Node) (text : String) : Node := { node with text := some text }

/-! ## Addresses -/

/-- The names and indices of the nodes below the root that lead to a node. -/
abbrev Address := List (String × Int)

/-- The node at an address. -/
def at? : Address → Node → Option Node
  | [], node => some node
  | (name, index) :: rest, node => (node.findChild? name index).bind (at? rest)

/-- The node with `change` applied at an address; nodes that are missing are created. -/
def changeAt (change : Node → Node) : Address → Node → Node
  | [], node => change node
  | (name, index) :: rest, node => node.changeChild name index (changeAt change rest)

/-! ## Namespace declarations -/

/-- The prefix that an attribute of this name declares, if it is a namespace declaration: `none`
inside for the default namespace. -/
def declaredPrefix? (key : String) : Option (Option String) :=
  if key = "xmlns" then some none
  else if "xmlns:".toList.isPrefixOf key.toList then
    some (some (String.ofList (key.toList.drop 6)))
  else none

/-- The namespace declarations among the attributes: prefix and URI, in order. -/
def declarations (node : Node) : List (Option String × String) :=
  node.attributes.entries.filterMap fun (name, value) =>
    (declaredPrefix? name).map fun declared => (declared, value)

/-- The attributes that are no namespace declarations. -/
def plainAttributes (node : Node) : List (String × String) :=
  node.attributes.entries.filter fun (name, _) => (declaredPrefix? name).isNone

/-- A short description of a node. -/
def summary (node : Node) : String :=
  "DocumentNode(name=" ++ Text.quoted node.name ++ ", index="
    ++ String.ofList (Number.decimalText node.index) ++ ", children="
    ++ toString node.children.length ++ ")"

end Node

end GeoMetadata
