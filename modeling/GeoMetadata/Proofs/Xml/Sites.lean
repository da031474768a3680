import GeoMetadata.Proofs.Xml.Recovery

/-!
# Names and the nearest declarations

A site is what decides on the names at a node of a document: the node without its children, and the
attributes of the nodes around it.  A prefix stands for the URI of the nearest declaration there
(`Site.uri?`), and this is what the names of the node are in (`Site.view?`).

Sites depend on nothing beside and below a node (`siteFrom?_withAttributesAt`), and what is seen of
them does not depend on where declarations stand among the attributes (`Reorders.view?_eq`).
-/

namespace GeoMetadata.Xml

open Text

/-! ## Declarations -/

/-- The name of the attribute that declares a prefix, or the default namespace. -/
def declarationName : Option String → String
  | none => "xmlns"
  | some declared => "xmlns:" ++ declared

theorem declaredPrefix?_eq_some_iff {key : String} {declared : Option String} :
    Node.declaredPrefix? key = some declared ↔ key = declarationName declared := by
  constructor
  · intro h
    unfold Node.declaredPrefix? at h
    split at h
    · rename_i hdefault
      obtain rfl := Option.some.inj h
      exact hdefault
    · split at h
      · rename_i hprefix
        obtain rfl := Option.some.inj h
        obtain ⟨rest, hrest⟩ := List.isPrefixOf_iff_prefix.mp hprefix
        have hdrop : key.toList.drop 6 = rest := by
          rw [← hrest]
          rfl
        rw [hdrop]
        refine String.toList_inj.mp ?_
        rw [← hrest, declarationName, String.toList_append]
        exact congrArg ("xmlns:".toList ++ ·) String.toList_ofList.symm
      · nomatch h
  · rintro rfl
    have hentry : (declarationEntry (declared, "")).1 = declarationName declared := by
      cases declared <;> rfl
    rw [← hentry]
    exact declaredPrefix?_declarationEntry _

/-- The declarations of a node are those of its attributes that have the names for it. -/
theorem entryValue?_declarations (node : Node) (declared : Option String) :
    entryValue? declared node.declarations = node.attributes.get? (declarationName declared) := by
  rw [Node.declarations, OrderedMap.get?]
  induction node.attributes.entries with
  | nil => rfl
  | cons entry rest ih =>
      obtain ⟨key, value⟩ := entry
      rw [entryValue?]
      cases hkey : Node.declaredPrefix? key with
      | none =>
          have hne : key ≠ declarationName declared := fun heq => by
            rw [declaredPrefix?_eq_some_iff.mpr heq] at hkey
            cases hkey
          rw [if_neg hne, List.filterMap_cons_none (by simp [hkey]), ih]
      | some other =>
          have hsame : key = declarationName declared ↔ other = declared := by
            rw [← declaredPrefix?_eq_some_iff, hkey, Option.some.injEq]
          rw [List.filterMap_cons_some (b := (other, value)) (by simp [hkey]), entryValue?, ih]
          simp only [hsame]

/-! ## Sites -/

/-- What decides on the names at a node: the node without its children, and the attributes of the
nodes around it. -/
structure Site where
  name : String
  text : Option String
  attributes : OrderedMap String String
  /-- The attributes of the nodes around, nearest first. -/
  around : List (OrderedMap String String)
  /-- The number of children. -/
  arity : Nat

/-- What is seen of an element without regard to how its names are written. -/
structure View where
  name : Name
  attributes : List (Name × String)
  text : Option String
  arity : Nat
  deriving DecidableEq

namespace Site

/-- The attributes of the node and of those around it, nearest first. -/
def scopes (site : Site) : List (OrderedMap String String) := site.attributes :: site.around

/-- The URI of the nearest declaration of a prefix, or of the default namespace. -/
def uri? (site : Site) (declared : Option String) : Option String :=
  site.scopes.findSome? fun attributes => attributes.get? (declarationName declared)

/-- The attributes that declare nothing. -/
def plainAttributes (site : Site) : List (String × String) :=
  site.attributes.entries.filter fun entry => (Node.declaredPrefix? entry.1).isNone

end Site

/-- The namespace of a URI: an empty one stands for none. -/
def namespaceOf? (uri : String) : Option String := if uri = "" then none else some uri

namespace Site

/-- A name at a site: with a prefix it is in the namespace that is declared nearest, and without one
it is in the nearest default namespace if it names an element, and in none if it names an attribute.
A prefix may be undeclared. -/
def resolve (site : Site) (isAttribute : Bool) (name : String) : Option Name :=
  match splitQualified name with
  | (some declared, part) =>
    (site.uri? (some declared)).map fun uri => ⟨namespaceOf? uri, part⟩
  | (none, part) =>
    some ⟨if isAttribute then none else (site.uri? none).bind namespaceOf?, part⟩

/-- What is to be seen of the element of a node, unless a prefix is undeclared. -/
def view? (site : Site) : Option View := do
  let name ← site.resolve false site.name
  let attributes ← site.plainAttributes.mapM fun entry =>
    (site.resolve true entry.1).map fun name => (name, safe entry.2)
  some ⟨name, attributes, site.text.map safe, site.arity⟩

/-- The prefix of the name of the node or of one of its attributes is declared neither by the node
nor around it. -/
def IsUndeclared (site : Site) : Prop :=
  ∃ name ∈ site.name :: site.plainAttributes.map Prod.fst, ∃ declared,
    (splitQualified name).1 = some declared ∧
      ∀ attributes ∈ site.scopes, attributes.get? ("xmlns:" ++ declared) = none

end Site

section Undeclared

variable {site : Site}

theorem resolve_eq_none_iff {isAttribute : Bool} {name : String} :
    site.resolve isAttribute name = none ↔
      ∃ declared, (splitQualified name).1 = some declared ∧
        ∀ attributes ∈ site.scopes, attributes.get? ("xmlns:" ++ declared) = none := by
  rcases hsplit : splitQualified name with ⟨_ | declared, part⟩
  · simp [Site.resolve, hsplit]
  · simp [Site.resolve, hsplit, Site.uri?, declarationName, List.findSome?_eq_none_iff]

theorem view?_eq_none_iff :
    site.view? = none ↔ site.resolve false site.name = none ∨
      ∃ entry ∈ site.plainAttributes, site.resolve true entry.1 = none := by
  have hattributes : (site.plainAttributes.mapM fun entry =>
      (site.resolve true entry.1).map fun name => (name, safe entry.2)) = none ↔
        ∃ entry ∈ site.plainAttributes, site.resolve true entry.1 = none := by
    simp only [mapM_eq_none_iff, Option.map_eq_none_iff]
  rw [← hattributes, Site.view?]
  cases site.resolve false site.name with
  | none => simp
  | some name =>
      rw [or_iff_right (Option.some_ne_none name)]
      generalize (site.plainAttributes.mapM fun entry =>
        (site.resolve true entry.1).map fun name => (name, safe entry.2)) = found
      cases found <;> simp

/-- A site can be seen unless it has a prefix that is not declared. -/
theorem isUndeclared_iff : site.IsUndeclared ↔ site.view? = none := by
  rw [view?_eq_none_iff, Site.IsUndeclared, List.exists_mem_cons_iff]
  simp only [List.mem_map, exists_exists_and_eq_and]
  exact or_congr resolve_eq_none_iff.symm
    (exists_congr fun _ => and_congr_right fun _ => resolve_eq_none_iff.symm)

end Undeclared

/-! ## The sites of a document -/

/-- The site of a node with some nodes around it. -/
def siteOf (around : List (OrderedMap String String)) (node : Node) : Site :=
  ⟨node.name, node.text, node.attributes, around, node.children.length⟩

/-- The site at a position below a node: the positions among the children lead there. -/
def siteFrom? (around : List (OrderedMap String String)) (node : Node) : List Nat → Option Site
  | [] => some (siteOf around node)
  | i :: rest => node.children[i]?.bind fun child => siteFrom? (node.attributes :: around) child rest

mutual

/-- The sites of a node and of all nodes below it. -/
def sitesFrom (around : List (OrderedMap String String)) : Node → List Site
  | ⟨name, _, text, attributes, children⟩ =>
    ⟨name, text, attributes, around, children.length⟩ ::
      sitesOfAll (attributes :: around) children

/-- The sites of some nodes and of all nodes below them. -/
def sitesOfAll (around : List (OrderedMap String String)) : List Node → List Site
  | [] => []
  | node :: rest => sitesFrom around node ++ sitesOfAll around rest

end

mutual

/-- The sites are those at the positions. -/
theorem mem_sitesFrom_iff {around : List (OrderedMap String String)} {site : Site} (node : Node) :
    site ∈ sitesFrom around node ↔ ∃ position, siteFrom? around node position = some site := by
  obtain ⟨name, index, text, attributes, children⟩ := node
  rw [sitesFrom, List.mem_cons, mem_sitesOfAll_iff children]
  constructor
  · rintro (rfl | ⟨i, child, hchild, rest, hsite⟩)
    · exact ⟨[], rfl⟩
    · exact ⟨i :: rest, by rw [siteFrom?, hchild]; exact hsite⟩
  · rintro ⟨_ | ⟨i, rest⟩, hsite⟩
    · exact .inl (Option.some.inj hsite).symm
    · obtain ⟨child, hchild, hsite⟩ := Option.bind_eq_some_iff.mp hsite
      exact .inr ⟨i, child, hchild, rest, hsite⟩

theorem mem_sitesOfAll_iff {around : List (OrderedMap String String)} {site : Site}
    (nodes : List Node) :
    site ∈ sitesOfAll around nodes ↔
      ∃ (i : Nat) (node : Node), nodes[i]? = some node ∧
        ∃ rest, siteFrom? around node rest = some site := by
  cases nodes with
  | nil => simp [sitesOfAll]
  | cons first others =>
      rw [sitesOfAll, List.mem_append, mem_sitesFrom_iff first, mem_sitesOfAll_iff others]
      constructor
      · rintro (⟨rest, hsite⟩ | ⟨i, node, hnode, hsite⟩)
        · exact ⟨0, first, rfl, rest, hsite⟩
        · exact ⟨i + 1, node, hnode, hsite⟩
      · rintro ⟨_ | i, node, hnode, hsite⟩
        · obtain rfl := Option.some.inj hnode
          exact .inl hsite
        · exact .inr ⟨i, node, hnode, hsite⟩

end

/-- The site at a position of a document. -/
def siteAt? (document : Node) (position : List Nat) : Option Site := siteFrom? [] document position

/-- The sites of a document. -/
def sites (document : Node) : List Site := sitesFrom [] document

theorem mem_sites_iff {document : Node} {site : Site} :
    site ∈ sites document ↔ ∃ position, siteAt? document position = some site :=
  mem_sitesFrom_iff document

/-! ## Declarations elsewhere -/

/-- The document with other attributes at the node of a position. -/
def withAttributesAt (attributes : OrderedMap String String) : List Nat → Node → Node
  | [], node => { node with attributes := attributes }
  | i :: rest, node =>
    { node with children := node.children.modify i (withAttributesAt attributes rest) }

/-- The attributes of a node play a part only at the node and below it. -/
theorem siteFrom?_withAttributesAt {attributes : OrderedMap String String}
    {place position : List Nat} (helsewhere : ¬ place <+: position)
    (around : List (OrderedMap String String)) (node : Node) :
    siteFrom? around (withAttributesAt attributes place node) position =
      siteFrom? around node position := by
  induction place generalizing position around node with
  | nil => exact absurd List.nil_prefix helsewhere
  | cons i rest ih =>
      cases position with
      | nil => simp [siteFrom?, siteOf, withAttributesAt]
      | cons j others =>
          rw [withAttributesAt, siteFrom?, siteFrom?, List.getElem?_modify]
          by_cases hij : i = j
          · subst hij
            have hbelow : ¬ rest <+: others := fun h =>
              helsewhere (List.cons_prefix_cons.mpr ⟨rfl, h⟩)
            cases node.children[i]? with
            | none => rfl
            | some child => simpa using ih hbelow (node.attributes :: around) child
          · simp [hij]

/-- The sites differ only in where declarations stand among the attributes. -/
structure Site.Reorders (first second : Site) : Prop where
  name : first.name = second.name
  text : first.text = second.text
  arity : first.arity = second.arity
  plain : first.plainAttributes = second.plainAttributes
  scopes : List.Forall₂ (fun own other => own.entries.Perm other.entries) first.scopes second.scopes

namespace Site.Reorders

variable {first second : Site}

theorem get?_eq_of_perm {own other : OrderedMap String String}
    (h : own.entries.Perm other.entries) (key : String) : own.get? key = other.get? key := by
  refine Option.ext fun value => ?_
  rw [OrderedMap.get?, OrderedMap.get?, entryValue?_eq_some_iff own.nodup,
    entryValue?_eq_some_iff other.nodup, h.mem_iff]

theorem findSome?_eq_of_perm {owns others : List (OrderedMap String String)} {key : String}
    (h : List.Forall₂ (fun own other => own.entries.Perm other.entries) owns others) :
    (owns.findSome? fun attributes => attributes.get? key) =
      others.findSome? fun attributes => attributes.get? key := by
  induction h with
  | nil => rfl
  | cons hown _ ih => rw [List.findSome?_cons, List.findSome?_cons, get?_eq_of_perm hown, ih]

theorem uri?_eq (h : first.Reorders second) (declared : Option String) :
    first.uri? declared = second.uri? declared := findSome?_eq_of_perm h.scopes

theorem resolve_eq (h : first.Reorders second) : first.resolve = second.resolve := by
  funext isAttribute name
  simp only [Site.resolve, h.uri?_eq]

/-- What is seen of a site does not depend on the order of its declarations. -/
theorem view?_eq (h : first.Reorders second) : first.view? = second.view? := by
  rw [Site.view?, Site.view?, h.resolve_eq, h.name, h.plain, h.text, h.arity]

end Site.Reorders

/-! ## Sites that are fit for XML -/

/-- The URI can be declared, and it can stand in braces before a name. -/
def isUri (uri : String) : Bool := uri == "" || isNamespace uri

/-- The names and the URIs of a node are accepted in XML: the local parts of all names, those of
declarations among them, and the URIs that are declared. No two attributes are the same once their
prefixes are resolved. -/
structure Site.IsFit (site : Site) : Prop where
  name : isNamePart (splitQualified site.name).2 = true
  attributes : ∀ entry ∈ site.attributes.entries, isNamePart (splitQualified entry.1).2 = true
  uris : ∀ entry ∈ site.attributes.entries, (Node.declaredPrefix? entry.1).isSome = true →
    isUri entry.2 = true
  distinct : (site.plainAttributes.filterMap fun entry => site.resolve true entry.1).Nodup

/-- The names and the URIs of a node are accepted in XML, as a test. -/
def Site.isFit (site : Site) : Bool :=
  isNamePart (splitQualified site.name).2
    && site.attributes.entries.all (fun entry => isNamePart (splitQualified entry.1).2)
    && site.attributes.entries.all (fun entry =>
      !(Node.declaredPrefix? entry.1).isSome || isUri entry.2)
    && decide (site.plainAttributes.filterMap fun entry => site.resolve true entry.1).Nodup

theorem Site.isFit_iff {site : Site} : site.isFit = true ↔ site.IsFit := by
  simp only [Site.isFit, Bool.and_eq_true, List.all_eq_true, decide_eq_true_eq, Bool.or_eq_true,
    Bool.not_eq_true', ← Bool.not_eq_true, ← imp_iff_not_or]
  exact ⟨fun ⟨⟨⟨hname, hattributes⟩, huris⟩, hdistinct⟩ => ⟨hname, hattributes, huris, hdistinct⟩,
    fun ⟨hname, hattributes, huris, hdistinct⟩ => ⟨⟨⟨hname, hattributes⟩, huris⟩, hdistinct⟩⟩

instance (site : Site) : Decidable site.IsFit := decidable_of_iff _ Site.isFit_iff

theorem Site.Reorders.isFit {first second : Site} (h : first.Reorders second)
    (hfit : first.IsFit) : second.IsFit := by
  obtain ⟨hentries, -⟩ := List.forall₂_cons.mp h.scopes
  exact
    { name := h.name ▸ hfit.name
      attributes := fun entry hentry => hfit.attributes entry (hentries.mem_iff.mpr hentry)
      uris := fun entry hentry => hfit.uris entry (hentries.mem_iff.mpr hentry)
      distinct := h.plain ▸ h.resolve_eq ▸ hfit.distinct }

end GeoMetadata.Xml
