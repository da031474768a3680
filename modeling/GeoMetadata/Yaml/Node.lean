import GeoMetadata.Yaml.Token

/-!
# The nodes of YAML

A text holds at most one document, and a document is one node: a scalar, a sequence or a
mapping.  Blocks are told apart from bracketed collections by their tokens alone.  A part that
is left out is the empty scalar.  An alias stands for the node whose anchor it names, which
has to be complete before it.
-/

namespace GeoMetadata.Yaml

/-- A node with its tag, if it has one that says anything. The text of a plain scalar decides
what the scalar is. -/
inductive Node where
  | scalar (tag : Option String) (isPlain : Bool) (text : String)
  | sequence (tag : Option String) (items : List Node)
  | mapping (tag : Option String) (entries : List (Node × Node))
  deriving Inhabited

/-- The scalar that stands for a part left out. -/
def Node.empty : Node := .scalar none true ""

/-- What the tags of the core schema start with. -/
def corePrefix : String := "tag:yaml.org,2002:"

/-- The tag of a handle and a suffix. Only two handles are known. -/
def tagOf? (handle suffix : String) : Option String :=
  if handle = "" then some suffix
  else if handle = "!" then some ("!" ++ suffix)
  else if handle = "!!" then some (corePrefix ++ suffix)
  else none

/-- The tag of a node that says nothing about it. -/
def plainTag : String := "!"

/-- What is left to be read, and the nodes with an anchor so far. -/
structure Reader where
  tokens : List Token
  anchors : List (String × Node)

namespace Reader

/-- The reader after one token. -/
def skip (r : Reader) : Reader := { r with tokens := r.tokens.drop 1 }

/-- The next token is this one. -/
def atToken (r : Reader) (token : Token) : Bool := r.tokens.head? = some token

/-- The next token is one of these. -/
def atAny (r : Reader) (tokens : List Token) : Bool := r.tokens.head?.any tokens.contains

/-- The anchor and the tag before a node, in any order. -/
structure Properties where
  anchor : Option String
  tag : Option String

/-- Reads the anchor and the tag of a node. -/
def properties (r : Reader) : Option (Properties × Reader) :=
  match r.tokens with
  | .anchor name :: .tag handle suffix :: rest =>
    (tagOf? handle suffix).map fun tag => (⟨some name, some tag⟩, { r with tokens := rest })
  | .tag handle suffix :: .anchor name :: rest =>
    (tagOf? handle suffix).map fun tag => (⟨some name, some tag⟩, { r with tokens := rest })
  | .anchor name :: rest => some (⟨some name, none⟩, { r with tokens := rest })
  | .tag handle suffix :: rest =>
    (tagOf? handle suffix).map fun tag => (⟨none, some tag⟩, { r with tokens := rest })
  | _ => some (⟨none, none⟩, r)

/-- The tag that says something about a node. -/
def Properties.tag? (p : Properties) : Option String := p.tag.filter (· ≠ plainTag)

/-- A node with its anchor remembered, which must be a new one. -/
def remember (p : Properties) (node : Node) (r : Reader) : Option (Node × Reader) :=
  match p.anchor with
  | none => some (node, r)
  | some name =>
    if (r.anchors.lookup name).isSome then none
    else some (node, { r with anchors := (name, node) :: r.anchors })

/-- A node without content, which must have a property. -/
def absent (p : Properties) (r : Reader) : Option (Node × Reader) :=
  if p.anchor.isSome || p.tag.isSome then
    remember p (.scalar p.tag? (p.tag ≠ some plainTag) "") r
  else none

mutual

/-- Reads a node. Blocks are allowed where `block` says so, and sequences without indentation
where `indentless` does. -/
def node (block indentless : Bool) : Nat → Reader → Option (Node × Reader)
  | 0, _ => none
  | fuel + 1, r => do
    match r.tokens with
    | .alias name :: rest => some (← r.anchors.lookup name, { r with tokens := rest })
    | _ =>
      let (p, r) ← r.properties
      let sequence (found : List Node × Reader) := remember p (.sequence p.tag? found.1) found.2
      let mapping (found : List (Node × Node) × Reader) :=
        remember p (.mapping p.tag? found.1) found.2
      match r.tokens with
      | .blockEntry :: _ =>
        if indentless then sequence (← indentlessItems fuel [] r)
        else absent p r
      | .scalar isPlain text :: rest =>
        let isPlain := isPlain || p.tag = some plainTag
        remember p (.scalar p.tag? isPlain text) { r with tokens := rest }
      | .flowSequenceStart :: _ => sequence (← flowItems fuel [] r.skip)
      | .flowMappingStart :: _ => mapping (← flowEntries fuel [] r.skip)
      | .sequenceStart :: _ =>
        if block then sequence (← blockItems fuel [] r.skip) else absent p r
      | .mappingStart :: _ =>
        if block then mapping (← blockEntries fuel [] r.skip) else absent p r
      | _ => absent p r

/-- Reads a node, unless one of some tokens comes next: then it is left out. -/
def nodeUnless (stops : List Token) (block indentless : Bool) :
    Nat → Reader → Option (Node × Reader)
  | 0, _ => none
  | fuel + 1, r =>
    if r.atAny stops then some (.empty, r) else node block indentless fuel r

/-- Reads the items of a block sequence up to its end, after those in reverse order. -/
def blockItems : Nat → List Node → Reader → Option (List Node × Reader)
  | 0, _, _ => none
  | fuel + 1, done, r => do
    if r.atToken .blockEntry then
      let (item, r) ← nodeUnless [.blockEntry, .blockEnd] true false fuel r.skip
      blockItems fuel (item :: done) r
    else if r.atToken .blockEnd then some (done.reverse, r.skip)
    else none

/-- Reads the items of a sequence at the indentation of the mapping around it. -/
def indentlessItems : Nat → List Node → Reader → Option (List Node × Reader)
  | 0, _, _ => none
  | fuel + 1, done, r => do
    if r.atToken .blockEntry then
      let (item, r) ← nodeUnless [.blockEntry, .key, .value, .blockEnd] true false fuel r.skip
      indentlessItems fuel (item :: done) r
    else some (done.reverse, r)

/-- Reads the entries of a block mapping up to its end. -/
def blockEntries : Nat → List (Node × Node) → Reader → Option (List (Node × Node) × Reader)
  | 0, _, _ => none
  | fuel + 1, done, r => do
    if r.atToken .key then
      let stops := [.key, .value, .blockEnd]
      let (key, r) ← nodeUnless stops true true fuel r.skip
      let (value, r) ←
        if r.atToken .value then nodeUnless stops true true fuel r.skip else some (.empty, r)
      blockEntries fuel ((key, value) :: done) r
    else if r.atToken .blockEnd then some (done.reverse, r.skip)
    else none

/-- Reads the value after a key within brackets; `close` is the closing bracket. -/
def flowValue (close : Token) : Nat → Reader → Option (Node × Reader)
  | 0, _ => none
  | fuel + 1, r =>
    if r.atToken .value then nodeUnless [.flowEntry, close] false false fuel r.skip
    else some (.empty, r)

/-- Reads the items of a bracketed sequence. A key starts a mapping of one entry. -/
def flowItems : Nat → List Node → Reader → Option (List Node × Reader)
  | 0, _, _ => none
  | fuel + 1, done, r => do
    if r.atToken .flowSequenceEnd then some (done.reverse, r.skip)
    else
      let r ← if done.isEmpty then some r else if r.atToken .flowEntry then some r.skip else none
      if r.atToken .flowSequenceEnd then some (done.reverse, r.skip)
      else if r.atToken .key then
        let r := r.skip
        let (key, r) ←
          if r.atAny [.value, .flowEntry, .flowSequenceEnd] then some (.empty, r.skip)
          else node false false fuel r
        let (value, r) ← flowValue .flowSequenceEnd fuel r
        flowItems fuel (.mapping none [(key, value)] :: done) r
      else
        let (item, r) ← node false false fuel r
        flowItems fuel (item :: done) r

/-- Reads the entries of a bracketed mapping. An entry without key mark has no value. -/
def flowEntries : Nat → List (Node × Node) → Reader → Option (List (Node × Node) × Reader)
  | 0, _, _ => none
  | fuel + 1, done, r => do
    if r.atToken .flowMappingEnd then some (done.reverse, r.skip)
    else
      let r ← if done.isEmpty then some r else if r.atToken .flowEntry then some r.skip else none
      if r.atToken .flowMappingEnd then some (done.reverse, r.skip)
      else if r.atToken .key then
        let (key, r) ←
          nodeUnless [.value, .flowEntry, .flowMappingEnd] false false fuel r.skip
        let (value, r) ← flowValue .flowMappingEnd fuel r
        flowEntries fuel ((key, value) :: done) r
      else
        let (key, r) ← node false false fuel r
        flowEntries fuel ((key, .empty) :: done) r

end

/-- Reads the node of a document, after its start mark if it has one. -/
def document (r : Reader) : Option (Node × Reader) :=
  let fuel := 4 * r.tokens.length + 4
  if r.atToken .documentStart then
    let r := r.skip
    if r.tokens = [] ∨ r.atAny [.documentStart, .documentEnd] then some (.empty, r)
    else node true false fuel r
  else node true false fuel r

end Reader

/-- The node of a text with these tokens, if there is a document at all. After a document
only end marks may follow. -/
def Node.ofTokens? (tokens : List Token) : Option (Option Node) :=
  if tokens = [] then some none
  else do
    let (node, r) ← Reader.document ⟨tokens, []⟩
    if r.tokens.all (· = .documentEnd) then some (some node) else none

end GeoMetadata.Yaml
