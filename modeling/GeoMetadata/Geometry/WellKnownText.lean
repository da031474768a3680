import GeoMetadata.Geometry.Shape
import GeoMetadata.Number.Numeral

/-!
# Well-known text

Well-known text names the type of a shape and then lists its coordinates in parentheses, or
says that it is empty.  Positions may have a third and a fourth coordinate, which are passed
over.  They are announced after the type, or else the first position of the shape decides
whether the others have them.  A ring is closed and has at least three positions, and a line
does not consist of one position alone.  Shapes with curved parts are recognised, but they
are not supported.
-/

namespace GeoMetadata.WellKnownText

open Number (Binary64)

/-- Why a text gives no shape. -/
inductive Fault where
  /-- The text is not well-known text. -/
  | malformed
  /-- The shape has curved parts. -/
  | curved
  deriving DecidableEq, Repr

/-! ## Tokens -/

/-- A token of well-known text; words are in upper case. -/
inductive Token where
  | opener
  | closer
  | comma
  | number (x : Binary64)
  | word (letters : List Char)
  deriving DecidableEq, Repr

/-- A character between tokens. -/
def isGap (c : Char) : Bool := c = ' ' || c = '\n' || c = '\r' || c = '\t'

/-- The token that a single character is. -/
def markOf? : Char → Option Token
  | '(' => some .opener
  | ')' => some .closer
  | ',' => some .comma
  | _ => none

/-- The token of a run of other characters, which are given in reverse order. -/
def runToken (reversed : List Char) : Token :=
  match Number.readMeasure? reversed.reverse with
  | some x => .number x
  | none => .word (reversed.reverse.map Char.toUpper)

/-- Puts the token of a run, unless the run is empty, before some tokens. -/
def endRun (reversed : List Char) (tokens : List Token) : List Token :=
  if reversed = [] then tokens else runToken reversed :: tokens

/-- The tokens of a text. The run that the text continues is given in reverse order. -/
def tokensFrom (run : List Char) : List Char → List Token
  | [] => endRun run []
  | c :: rest =>
    match markOf? c with
    | some mark => endRun run (mark :: tokensFrom [] rest)
    | none => if isGap c then endRun run (tokensFrom [] rest) else tokensFrom (c :: run) rest

/-- The tokens of a text, which ends at a null character. -/
def tokens (text : String) : List Token :=
  tokensFrom [] (text.toList.takeWhile (·.toNat ≠ 0))

/-! ## Coordinates -/

/-- Which coordinates positions have beyond the first two, and whether that is still to be
found out. -/
structure Dimensions where
  third : Bool
  fourth : Bool
  undecided : Bool

/-- The tokens still to be read, and the dimensions of the present shape. -/
structure State where
  tokens : List Token
  dimensions : Dimensions

/-- What reads a part of well-known text. -/
abbrev Reader := StateT State (Except Fault)

/-- Reads nothing: the text is malformed. -/
def malformed {α : Type} : Reader α := throw .malformed

/-- Reads a token. -/
def token : Reader Token := do
  let state ← get
  match state.tokens with
  | [] => malformed
  | first :: rest => set { state with tokens := rest }; pure first

/-- The next token, which stays. -/
def peek? : Reader (Option Token) := do return (← get).tokens.head?

/-- Reads a number. -/
def number : Reader Binary64 := do
  match ← token with
  | .number x => pure x
  | _ => malformed

/-- The next token is a number. -/
def isNumberNext : Reader Bool := do
  match ← peek? with
  | some (.number _) => pure true
  | _ => pure false

/-- Changes the dimensions. -/
def setDimensions (change : Dimensions → Dimensions) : Reader Unit :=
  modify fun state => { state with dimensions := change state.dimensions }

/-- Reads a position. The first of a shape settles the dimensions. -/
def position : Reader Position := do
  let x ← number
  let y ← number
  if (← get).dimensions.undecided && (← isNumberNext) then
    setDimensions fun d => { d with third := true }
  if (← get).dimensions.third then
    let _ ← number
  if (← get).dimensions.undecided && (← get).dimensions.third && (← isNumberNext) then
    setDimensions fun d => { d with fourth := true }
  if (← get).dimensions.fourth then
    let _ ← number
  setDimensions fun d => { d with undecided := false }
  pure ⟨x, y⟩

/-! ## Lists in parentheses -/

/-- The dimensions that a word announces. -/
def announced? (word : List Char) : Option Dimensions :=
  if word = ['Z'] then some ⟨true, false, false⟩
  else if word = ['M'] then some ⟨false, true, false⟩
  else if word = ['Z', 'M'] then some ⟨true, true, false⟩
  else none

/-- The word for a shape without positions. -/
def emptyWord : List Char := "EMPTY".toList

/-- Reads the opening of a list, or the word for an empty one; true for the former. -/
def opening : Reader Bool := do
  let first ← token
  let second ← match first with
    | .word word =>
      match announced? word with
      | some dimensions =>
        setDimensions fun d =>
          ⟨d.third || dimensions.third, d.fourth || dimensions.fourth, false⟩
        token
      | none => pure first
    | _ => pure first
  match second with
  | .opener => pure true
  | .word word => if word = emptyWord then pure false else malformed
  | _ => malformed

/-- Reads at least one item, with commas in between, up to the end of the list. There are
fewer items than `fuel`. -/
def items {α : Type} (item : Reader α) : Nat → Reader (List α)
  | 0 => malformed
  | fuel + 1 => do
    let first ← item
    match ← token with
    | .comma => return first :: (← items item fuel)
    | .closer => pure [first]
    | _ => malformed

/-- Reads items up to the end of the list; each takes up a token at least. -/
def itemsToEnd {α : Type} (item : Reader α) : Reader (List α) := do
  items item ((← get).tokens.length + 1)

/-- Reads a list that may be empty. -/
def list {α : Type} (item : Reader α) : Reader (List α) := do
  if ← opening then itemsToEnd item else pure []

/-- Reads a list of positions. -/
def positions : Reader (List Position) := list position

/-! ## Shapes -/

/-- Reads what follows the name of a point. -/
def pointBody : Reader Shape := do
  match ← positions with
  | [] => pure (.point none)
  | [p] => pure (.point (some p))
  | _ => malformed

/-- Reads what follows the name of a line. -/
def lineVertices : Reader (List Position) := do
  let vertices ← positions
  if vertices.length = 1 then malformed else pure vertices

/-- The two positions are the same point. -/
def isSamePoint (p q : Position) : Bool := p.x.same q.x && p.y.same q.y

/-- The vertices are empty, or at least three of which the last is the first. -/
def isRing (vertices : List Position) : Bool :=
  match vertices.head?, vertices.getLast? with
  | some first, some last => 3 ≤ vertices.length && isSamePoint first last
  | _, _ => true

/-- Reads a ring. -/
def ring : Reader (List Position) := do
  let vertices ← positions
  if isRing vertices then pure vertices else malformed

/-- Reads what follows the name of a polygon. Only a polygon without an outer ring has an
empty one. -/
def polygonBody : Reader Shape := do
  let rings ← list ring
  match rings with
  | [] :: holes => if holes.all List.isEmpty then pure (.polygon rings) else malformed
  | _ => pure (.polygon rings)

/-- Reads what follows the name of a collection of points, which may stand without
parentheses of their own. -/
def pointsBody : Reader Shape := do
  if ← opening then
    match ← peek? with
    | some (.number _) =>
      return .collection ((← itemsToEnd position).map fun p => .point (some p))
    | some .opener => return .collection (← itemsToEnd pointBody)
    | some (.word word) =>
      if word = emptyWord then return .collection (← itemsToEnd pointBody) else malformed
    | _ => malformed
  else pure (.collection [])

/-- The names of shapes. -/
inductive Kind where
  | point | line | ring | polygon | points | lines | polygons | collection
  | arc | compoundCurve | curvePolygon | curves | surfaces
  deriving DecidableEq, Repr

/-- The names of shapes as they are written. -/
def kindNames : List (String × Kind) :=
  [("POINT", .point), ("LINESTRING", .line), ("LINEARRING", .ring), ("POLYGON", .polygon),
    ("MULTIPOINT", .points), ("MULTILINESTRING", .lines), ("MULTIPOLYGON", .polygons),
    ("GEOMETRYCOLLECTION", .collection), ("CIRCULARSTRING", .arc),
    ("COMPOUNDCURVE", .compoundCurve), ("CURVEPOLYGON", .curvePolygon), ("MULTICURVE", .curves),
    ("MULTISURFACE", .surfaces)]

/-- What a name may be followed by without a gap, with the dimensions that it announces. -/
def modifiers : List (String × Dimensions) :=
  [("", ⟨false, false, true⟩), ("Z", ⟨true, false, false⟩), ("M", ⟨false, true, false⟩),
    ("ZM", ⟨true, true, false⟩)]

/-- The kind and the dimensions of a word that is a name with a modifier. -/
def kindOf? (word : List Char) : Option (Kind × Dimensions) :=
  kindNames.findSome? fun (name, kind) =>
    modifiers.findSome? fun (modifier, dimensions) =>
      if word = name.toList ++ modifier.toList then some (kind, dimensions) else none

/-- A shape that has been read, or the kind of a curved one. -/
inductive Found where
  | shape (found : Shape)
  | curved (kind : Kind)

/-- The shape, if it is not curved. -/
def Found.shape? : Found → Option Shape
  | .shape found => some found
  | .curved _ => none

/-- What was read can be a part of a curve: a line or a curve. -/
def Found.isCurve : Found → Bool
  | .shape (.line _) => true
  | .curved .arc => true
  | .curved .compoundCurve => true
  | _ => false

/-- What was read can be a part of a surface: a polygon, with curved rings or not. -/
def Found.isSurface : Found → Bool
  | .shape (.polygon _) => true
  | .curved .curvePolygon => true
  | _ => false

/-- Reads a part of a curved shape: a plain list in parentheses is read by `plain`, anything
else is a shape with its name, which must be of the right sort. -/
def part (plain : Reader Found) (named : Reader Found) (isRight : Found → Bool) :
    Reader Found := do
  match ← peek? with
  | some .opener => plain
  | some (.word word) =>
    if word = emptyWord then plain
    else
      let found ← named
      if isRight found then pure found else malformed
  | _ => malformed

/-- Reads a shape with its name. Shapes are nested less deeply than `fuel`. -/
def shape : Nat → Reader Found
  | 0 => malformed
  | fuel + 1 => do
    let .word word ← token | malformed
    let some (kind, dimensions) := kindOf? word | malformed
    let outer := (← get).dimensions
    setDimensions fun _ => dimensions
    let plainLine : Reader Found := do pure (.shape (.line (← lineVertices)))
    let plainPolygon : Reader Found := do pure (.shape (← polygonBody))
    let curve := part plainLine (shape fuel) Found.isCurve
    let surface := part plainPolygon (shape fuel) Found.isSurface
    let found ← match kind with
      | .point => do pure (.shape (← pointBody))
      | .line => do pure (.shape (.line (← lineVertices)))
      | .ring => do pure (.shape (.line (← ring)))
      | .polygon => do pure (.shape (← polygonBody))
      | .points => do pure (.shape (← pointsBody))
      | .lines => do pure (.shape (.collection (← list (Shape.line <$> lineVertices))))
      | .polygons => do pure (.shape (.collection (← list polygonBody)))
      | .collection => do
        let parts ← list (shape fuel)
        match parts.mapM Found.shape? with
        | some shapes => pure (.shape (.collection shapes))
        | none => pure (.curved .collection)
      | .arc => do
        let vertices ← positions
        if vertices.length = 1 ∨ vertices.length = 2 then malformed else pure (.curved kind)
      | .compoundCurve => do let _ ← list curve; pure (.curved kind)
      | .curvePolygon => do let _ ← list curve; pure (.curved kind)
      | .curves => do let _ ← list curve; pure (.curved kind)
      | .surfaces => do let _ ← list surface; pure (.curved kind)
    setDimensions fun _ => outer
    pure found

/-- The shape that a whole text gives. -/
def read (text : String) : Except Fault Shape :=
  let all := tokens text
  match (shape (all.length + 1)).run ⟨all, ⟨false, false, true⟩⟩ with
  | .error fault => .error fault
  | .ok (found, state) =>
    if state.tokens ≠ [] then .error .malformed
    else match found with
      | .shape found => .ok found
      | .curved _ => .error .curved

/-- The bounds of the shape that a text gives. -/
def boundingBox (text : String) : Except Fault BoundingBox :=
  (read text).map fun found => .ofVertices found.vertices

end GeoMetadata.WellKnownText
