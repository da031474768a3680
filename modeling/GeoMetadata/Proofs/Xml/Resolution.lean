import GeoMetadata.Proofs.Xml.Sites

/-!
# Names are resolved by the nearest declarations

Building an element passes on the declarations in scope, those of the node before those around it.
Looking a prefix up in them is the same as looking for the nearest node that declares it (`Knows`).
So a name is found as the site of its node has it (`nameIn_of_resolve`), or its prefix is at fault
(`nameIn_of_resolve_eq_none`), and the element looks as the site does (`view_of_buildHead`).

In a document that is fit for XML nothing else is at fault (`failsWith_build`).  So the element is
built exactly if no prefix is undeclared, and it looks at each position as the site there does
(`viewAt?_of_build`).
-/

namespace GeoMetadata.Xml

open Text

variable {scope : List Declaration} {around : List (OrderedMap String String)} {site : Site}

/-! ## Declarations in scope -/

/-- The declarations in scope give each prefix the URI that the nearest node around declares. -/
structure Knows (scope : List Declaration) (around : List (OrderedMap String String)) : Prop where
  find : ∀ declared, entryValue? declared scope =
    around.findSome? fun attributes => attributes.get? (declarationName declared)
  uris : ∀ declaration ∈ scope, isUri declaration.2 = true

theorem knows_nil : Knows [] [] := ⟨fun _ => rfl, by simp⟩

theorem splitQualified_declarationName (declared : String) :
    splitQualified (declarationName (some declared)) = (some "xmlns", declared) := by
  have hlist : (declarationName (some declared)).toList =
      "xmlns".toList ++ ':' :: declared.toList := by
    rw [declarationName, String.toList_append]
    rfl
  rw [splitQualified, hlist, cutAt_append_cons (by decide)]
  simp only [String.ofList_toList]

/-- The declarations of a node that is fit for XML can be written. -/
theorem isUri_of_mem_declarations {node : Node} (hfit : (siteOf around node).IsFit) :
    ∀ declaration ∈ node.declarations, isUri declaration.2 = true ∧
      ∀ declared, declaration.1 = some declared → isNamePart declared = true := by
  intro declaration hmem
  obtain ⟨entry, hentry, hdeclaration⟩ := List.mem_filterMap.mp hmem
  obtain ⟨declared?, hdeclared, rfl⟩ := Option.map_eq_some_iff.mp hdeclaration
  refine ⟨hfit.uris entry hentry (Option.isSome_of_eq_some hdeclared), ?_⟩
  rintro declared rfl
  have hpart := hfit.attributes entry hentry
  rw [declaredPrefix?_eq_some_iff.mp hdeclared, splitQualified_declarationName] at hpart
  exact hpart

/-- The declarations of a node come before those around it. -/
theorem Knows.extend {node : Node} (h : Knows scope around) (hfit : (siteOf around node).IsFit) :
    Knows (node.declarations ++ scope) (siteOf around node).scopes where
  find declared := by
    rw [entryValue?_append, entryValue?_declarations, h.find, Site.scopes, List.findSome?_cons]
    show (node.attributes.get? _).or _ = _
    cases hown : node.attributes.get? (declarationName declared) <;> simp [siteOf, hown]
  uris := List.forall_mem_append.mpr
    ⟨fun declaration h => (isUri_of_mem_declarations hfit declaration h).1, h.uris⟩

/-! ## Names -/

theorem splitQualified_eq_none {name part : String} (hsplit : splitQualified name = (none, part)) :
    part = name := by
  unfold splitQualified at hsplit
  split at hsplit
  · exact (Prod.mk.inj hsplit).2.symm
  · nomatch (Prod.mk.inj hsplit).1

/-- An expanded name is read back, and without a URI if its URI is empty. -/
theorem ofExpanded_expanded_of_isUri {uri part : String} (huri : isUri uri = true)
    (hpart : isNamePart part = true) :
    Name.ofExpanded (Name.expanded ⟨some uri, part⟩) = .ok ⟨namespaceOf? uri, part⟩ := by
  by_cases hempty : uri = ""
  · subst hempty
    obtain ⟨c, rest, hchars, -⟩ := toList_eq_cons_of_isNamePart hpart
    have hall : isText (Name.expanded ⟨some "", part⟩) = true :=
      isText_append (by decide) (isText_of_isNamePart hpart)
    have hlist : (Name.expanded ⟨some "", part⟩).toList = '\x7b' :: '\x7d' :: c :: rest := by
      simp [Name.expanded, hchars]
    have hspelled : String.ofList (c :: rest) = part := by rw [← hchars, String.ofList_toList]
    rw [Name.ofExpanded, hall, hlist]
    simp [cutAt, hspelled, namespaceOf?]
  · have hnamespace : isNamespace uri = true := by
      rw [isUri, Bool.or_eq_true, beq_iff_eq] at huri
      exact huri.resolve_left hempty
    rw [ofExpanded_expanded hnamespace hpart, namespaceOf?, if_neg hempty]

theorem all_isReference_namespaceOf? {uri : String} (huri : isUri uri = true) :
    (namespaceOf? uri).all Uri.isReference = true := by
  rw [namespaceOf?]
  split
  · rfl
  · rename_i hempty
    rw [isUri, Bool.or_eq_true, beq_iff_eq] at huri
    exact isReference_of_isNamespace (huri.resolve_left hempty)

section Names

variable {isAttribute : Bool} {name : String}

/-- A declared URI stands for a namespace that can be written. -/
theorem Knows.isUri_of_uri? {declared : Option String} {uri : String} (h : Knows scope site.scopes)
    (huri : site.uri? declared = some uri) : isUri uri = true := by
  rw [Site.uri?, ← h.find] at huri
  exact h.uris _ (mem_of_entryValue?_eq_some huri)

/-- A name without prefix is in the default namespace, unless there is none or it is empty. -/
theorem nameIn_of_unprefixed (h : Knows scope site.scopes)
    (hsplit : splitQualified name = (none, name)) (hpart : isNamePart name = true) :
    nameIn scope isAttribute name =
        .ok ⟨if isAttribute then none else (site.uri? none).bind namespaceOf?, name⟩ ∧
      isNamePart name = true ∧
      (if isAttribute then none else (site.uri? none).bind namespaceOf?).all
        Uri.isReference = true := by
  have hplain (hresolve : resolve scope isAttribute name = .ok name) :
      nameIn scope isAttribute name = .ok ⟨none, name⟩ := by
    rw [nameIn, hresolve]
    exact ofExpanded_of_isNamePart hpart
  have hfind : entryValue? none scope = site.uri? none := h.find none
  cases isAttribute with
  | true => exact ⟨hplain (by simp [resolve, hsplit]), hpart, rfl⟩
  | false =>
      cases huri : site.uri? none with
      | none => exact ⟨hplain (by simp [resolve, hsplit, hfind, huri]), hpart, rfl⟩
      | some uri =>
          refine ⟨?_, hpart, all_isReference_namespaceOf? (h.isUri_of_uri? huri)⟩
          by_cases hempty : uri = ""
          · rw [hplain (by simp [resolve, hsplit, hfind, huri, hempty]), hempty]
            rfl
          · have hresolve : resolve scope false name = .ok (Name.expanded ⟨some uri, name⟩) := by
              simp [resolve, hsplit, hfind, huri, hempty]
            rw [nameIn, hresolve]
            exact ofExpanded_expanded_of_isUri (h.isUri_of_uri? huri) hpart

/-- A name is found as its site has it, and it can be written. -/
theorem nameIn_of_resolve {found : Name} (h : Knows scope site.scopes)
    (hpart : isNamePart (splitQualified name).2 = true)
    (hfound : site.resolve isAttribute name = some found) :
    nameIn scope isAttribute name = .ok found ∧ isNamePart found.part = true ∧
      found.uri.all Uri.isReference = true := by
  rw [Site.resolve] at hfound
  rcases hsplit : splitQualified name with ⟨_ | declared, part⟩
  · obtain rfl := splitQualified_eq_none hsplit
    rw [hsplit] at hfound hpart
    obtain rfl := Option.some.inj hfound
    exact nameIn_of_unprefixed h hsplit hpart
  · rw [hsplit] at hfound hpart
    obtain ⟨uri, huri, rfl⟩ := Option.map_eq_some_iff.mp hfound
    have hscope : entryValue? (some declared) scope = some uri := (h.find _).trans huri
    have hresolve : resolve scope isAttribute name = .ok (Name.expanded ⟨some uri, part⟩) := by
      simp [resolve, hsplit, hscope]
    refine ⟨?_, hpart, all_isReference_namespaceOf? (h.isUri_of_uri? huri)⟩
    rw [nameIn, hresolve]
    exact ofExpanded_expanded_of_isUri (h.isUri_of_uri? huri) hpart

/-- A prefix that is not declared is at fault. -/
theorem nameIn_of_resolve_eq_none (h : Knows scope site.scopes)
    (hnone : site.resolve isAttribute name = none) :
    ∃ declared, nameIn scope isAttribute name = .error (.undeclaredPrefix declared name) := by
  rw [Site.resolve] at hnone
  rcases hsplit : splitQualified name with ⟨_ | declared, part⟩
  · rw [hsplit] at hnone
    cases hnone
  · rw [hsplit] at hnone
    have hscope : entryValue? (some declared) scope = none :=
      (h.find _).trans (Option.map_eq_none_iff.mp hnone)
    have hresolve : resolve scope isAttribute name = .error (.undeclaredPrefix declared name) := by
      simp [resolve, hsplit, hscope]
    exact ⟨declared, by rw [nameIn, hresolve]; rfl⟩

theorem resolve_of_nameIn {found : Name} (h : Knows scope site.scopes)
    (hpart : isNamePart (splitQualified name).2 = true)
    (hok : nameIn scope isAttribute name = .ok found) :
    site.resolve isAttribute name = some found := by
  cases hresolve : site.resolve isAttribute name with
  | none =>
      obtain ⟨declared, hfails⟩ := nameIn_of_resolve_eq_none h hresolve
      rw [hok] at hfails
      nomatch hfails
  | some other =>
      rw [(nameIn_of_resolve h hpart hresolve).1] at hok
      rw [Except.ok.inj hok]

/-- The fault of a prefix that is not declared. -/
def BuildFault.IsOfPrefix (fault : BuildFault) : Prop :=
  ∃ declared name, fault = .undeclaredPrefix declared name

theorem failsWith_nameIn (h : Knows scope site.scopes)
    (hpart : isNamePart (splitQualified name).2 = true) :
    FailsWith BuildFault.IsOfPrefix (nameIn scope isAttribute name) := by
  cases hresolve : site.resolve isAttribute name with
  | none =>
      obtain ⟨declared, hfails⟩ := nameIn_of_resolve_eq_none h hresolve
      rw [hfails]
      exact failsWith_error.mpr ⟨declared, name, rfl⟩
  | some found =>
      rw [(nameIn_of_resolve h hpart hresolve).1]
      exact failsWith_ok _ _

end Names

/-! ## Attributes -/

section Attributes

variable {frames : Frames} {next : Nat} {entries : List (String × String)} {done : List Attribute}

/-- What is seen of an attribute. -/
def Attribute.seen (attr : Attribute) : Name × String := (attr.name, attr.value)

theorem failsWith_buildAttributes (h : Knows scope site.scopes)
    (hparts : ∀ entry ∈ entries, isNamePart (splitQualified entry.1).2 = true) :
    FailsWith BuildFault.IsOfPrefix (buildAttributes scope entries done frames next) := by
  induction entries generalizing done frames next with
  | nil => exact failsWith_ok _ _
  | cons entry rest ih =>
      obtain ⟨hpart, hrest⟩ := List.forall_mem_cons.mp hparts
      rw [buildAttributes, ← bind_assoc]
      refine (failsWith_nameIn h hpart).bind fun found hfound => ?_
      have hfoundPart := (nameIn_of_resolve h hpart (resolve_of_nameIn h hpart hfound)).2.1
      simp only [hfoundPart, Bool.not_true, Bool.false_eq_true, if_false]
      exact ih hrest

/-- The attributes look as their names are resolved. None replaces another if they differ. -/
theorem seen_of_buildAttributes {found : List Attribute × Frames × Nat}
    (h : Knows scope site.scopes)
    (hparts : ∀ entry ∈ entries, isNamePart (splitQualified entry.1).2 = true)
    (hdistinct : (done.map Attribute.name ++
      entries.filterMap fun entry => site.resolve true entry.1).Nodup)
    (hok : buildAttributes scope entries done frames next = .ok found) :
    ∃ seen, (entries.mapM fun entry =>
        (site.resolve true entry.1).map fun name => (name, safe entry.2)) = some seen ∧
      found.1.map Attribute.seen = done.map Attribute.seen ++ seen := by
  induction entries generalizing done frames next with
  | nil =>
      obtain rfl := Except.ok.inj hok
      exact ⟨[], rfl, (List.append_nil _).symm⟩
  | cons entry rest ih =>
      obtain ⟨hpart, hrest⟩ := List.forall_mem_cons.mp hparts
      obtain ⟨name, hname, -, hok⟩ := buildAttributes_cons_eq_ok_iff.mp hok
      have hresolve := resolve_of_nameIn h hpart hname
      simp only [List.filterMap_cons, hresolve] at hdistinct
      rw [List.append_cons] at hdistinct
      have hfresh : name ∉ done.map Attribute.name := by
        have hfirst := (List.nodup_append.mp hdistinct).1
        exact fun hmem => (List.nodup_append.mp hfirst).2.2 _ hmem _ List.mem_cons_self rfl
      rw [setAttribute_of_forall_ne hfresh] at hok
      obtain ⟨seen, hseen, hmap⟩ := ih hrest (by simpa using hdistinct) hok
      refine ⟨(name, safe entry.2) :: seen, ?_, ?_⟩
      · rw [List.mapM_cons, hresolve, hseen]
        rfl
      · rw [hmap, List.map_append, List.append_assoc]
        rfl

end Attributes

/-! ## Heads -/

section Heads

variable {node : Node} {outer : Frames} {next : Nat}

theorem plainAttributes_siteOf : (siteOf around node).plainAttributes = node.plainAttributes := rfl

theorem isNamePart_of_mem_plainAttributes (hfit : (siteOf around node).IsFit) :
    ∀ entry ∈ node.plainAttributes, isNamePart (splitQualified entry.1).2 = true :=
  fun entry hentry => hfit.attributes entry (List.mem_of_mem_filter hentry)

theorem isDeclaration_of_isFit (hfit : (siteOf around node).IsFit) :
    ∀ declaration ∈ node.declarations, isDeclaration declaration = true := by
  intro declaration hmem
  obtain ⟨huri, hdeclared⟩ := isUri_of_mem_declarations hfit declaration hmem
  have hparts : isText declaration.2 = true ∧ Uri.isReference declaration.2 = true := by
    rw [isUri, Bool.or_eq_true, beq_iff_eq] at huri
    rcases huri with hempty | hnamespace
    · rw [hempty]
      decide
    · simp only [isNamespace, Bool.and_eq_true] at hnamespace
      exact ⟨hnamespace.1.1.2, hnamespace.2⟩
  rw [isDeclaration, hparts.1, hparts.2]
  cases hname : declaration.1 with
  | none => rfl
  | some declared =>
      have hpart := hdeclared declared hname
      rw [Option.all_some, isText_of_isNamePart hpart, hpart]
      rfl

theorem hasHead_iff (h : Knows scope (siteOf around node).scopes)
    (hfit : (siteOf around node).IsFit) :
    HasHead scope node ↔ ¬ (siteOf around node).IsUndeclared := by
  have hname : isElementName scope node.name = true ↔
      (siteOf around node).resolve false node.name ≠ none := by
    rw [isElementName_iff, Option.ne_none_iff_exists']
    constructor
    · rintro ⟨found, hfound, -⟩
      exact ⟨found, resolve_of_nameIn h hfit.name hfound⟩
    · rintro ⟨found, hfound⟩
      exact ⟨found, nameIn_of_resolve h hfit.name hfound⟩
  have hattribute (entry : String × String) (hentry : entry ∈ node.plainAttributes) :
      isAttributeName scope entry.1 = true ↔
        (siteOf around node).resolve true entry.1 ≠ none := by
    have hpart := isNamePart_of_mem_plainAttributes hfit entry hentry
    rw [isAttributeName_iff, Option.ne_none_iff_exists']
    constructor
    · rintro ⟨found, hfound, -⟩
      exact ⟨found, resolve_of_nameIn h hpart hfound⟩
    · rintro ⟨found, hfound⟩
      obtain ⟨hok, hfoundPart, -⟩ := nameIn_of_resolve h hpart hfound
      exact ⟨found, hok, hfoundPart⟩
  rw [isUndeclared_iff, view?_eq_none_iff, not_or, plainAttributes_siteOf]
  constructor
  · rintro ⟨helement, -, hattributes⟩
    refine ⟨hname.mp helement, ?_⟩
    rintro ⟨entry, hentry, hnone⟩
    exact (hattribute entry hentry).mp (hattributes entry hentry) hnone
  · rintro ⟨helement, hattributes⟩
    exact ⟨hname.mpr helement, isDeclaration_of_isFit hfit, fun entry hentry =>
      (hattribute entry hentry).mpr fun hnone => hattributes ⟨entry, hentry, hnone⟩⟩

/-- Nothing but a prefix can be at fault in a node that is fit for XML. -/
theorem failsWith_buildHead (h : Knows scope (siteOf around node).scopes)
    (hfit : (siteOf around node).IsFit) :
    FailsWith BuildFault.IsOfPrefix (buildHead node scope outer next) := by
  rw [buildHead, ← bind_assoc]
  refine (failsWith_nameIn h hfit.name).bind fun found hfound => ?_
  obtain ⟨-, hpart, hreference⟩ :=
    nameIn_of_resolve h hfit.name (resolve_of_nameIn h hfit.name hfound)
  obtain ⟨frames, hframes⟩ : Succeeds (addDeclarations node.declarations ([] :: outer)) :=
    succeeds_addDeclarations.mpr (isDeclaration_of_isFit hfit)
  have hattributes (after : Frames) (number : Nat) : FailsWith BuildFault.IsOfPrefix
      (buildAttributes scope node.plainAttributes [] after number) :=
    failsWith_buildAttributes h (isNamePart_of_mem_plainAttributes hfit)
  obtain ⟨uri, part⟩ := found
  simp only [hpart, hframes, Bool.not_true, Bool.false_eq_true, if_false]
  cases uri with
  | none => exact (hattributes _ _).bind fun _ _ => failsWith_ok _ _
  | some uri =>
      rw [Option.all_some] at hreference
      simp only [hreference, Bool.not_true, Bool.false_eq_true, if_false]
      exact (hattributes _ _).bind fun _ _ => failsWith_ok _ _

/-- The head of an element looks as the site of its node does. -/
theorem view_of_buildHead {head : Head} (h : Knows scope (siteOf around node).scopes)
    (hfit : (siteOf around node).IsFit) (hok : buildHead node scope outer next = .ok head) :
    (siteOf around node).view? = some ⟨head.name, head.attributes.map Attribute.seen,
      node.text.map safe, node.children.length⟩ := by
  obtain ⟨declared, hname, -, -, -, -, hattributes⟩ := buildHead_eq_ok_iff.mp hok
  have hresolve : (siteOf around node).resolve false (siteOf around node).name = some head.name :=
    resolve_of_nameIn h hfit.name hname
  have hdistinct : (([] : List Attribute).map Attribute.name ++ node.plainAttributes.filterMap
      fun entry => (siteOf around node).resolve true entry.1).Nodup := hfit.distinct
  obtain ⟨seen, hseen, hmap⟩ := seen_of_buildAttributes h
    (isNamePart_of_mem_plainAttributes hfit) hdistinct hattributes
  rw [← plainAttributes_siteOf] at hseen
  rw [Site.view?, hresolve, hseen, hmap]
  rfl

end Heads

/-! ## Trees -/

/-- What is seen of an element. -/
def Element.view (element : Element) : View :=
  ⟨element.name, element.attributes.map Attribute.seen, element.text, element.children.length⟩

/-- What is seen at a position below an element. -/
def Element.viewAt? (element : Element) : List Nat → Option View
  | [] => some element.view
  | i :: rest => element.children[i]?.bind fun child => child.viewAt? rest

section Trees

theorem sitesFrom_eq_cons (node : Node) :
    sitesFrom around node =
      siteOf around node :: sitesOfAll (siteOf around node).scopes node.children := by
  obtain ⟨name, index, text, attributes, children⟩ := node
  rw [sitesFrom]
  rfl

mutual

theorem failsWith_build {scope : List Declaration} {around : List (OrderedMap String String)}
    {outer : Frames} {next : Nat} (node : Node) (h : Knows scope around)
    (hfit : ∀ site ∈ sitesFrom around node, site.IsFit) :
    FailsWith BuildFault.IsOfPrefix (Element.build scope outer next node) := by
  rw [sitesFrom_eq_cons, List.forall_mem_cons] at hfit
  have hknows := h.extend hfit.1
  obtain ⟨name, index, text, attributes, children⟩ := node
  rw [Element.build]
  refine (failsWith_buildHead hknows hfit.1).bind fun head _ => ?_
  exact (failsWith_buildAll children hknows hfit.2).bind fun _ _ => failsWith_ok _ _

theorem failsWith_buildAll {scope : List Declaration} {around : List (OrderedMap String String)}
    {outer : Frames} {next : Nat} (nodes : List Node) (h : Knows scope around)
    (hfit : ∀ site ∈ sitesOfAll around nodes, site.IsFit) :
    FailsWith BuildFault.IsOfPrefix (Element.buildAll scope outer next nodes) := by
  cases nodes with
  | nil => exact failsWith_ok _ _
  | cons node rest =>
      rw [sitesOfAll, List.forall_mem_append] at hfit
      refine (failsWith_build node h hfit.1).bind fun first _ => ?_
      exact (failsWith_buildAll rest h hfit.2).bind fun _ _ => failsWith_ok _ _

end

mutual

/-- An element can be built exactly if no prefix is undeclared. -/
theorem buildable_iff {scope : List Declaration} {around : List (OrderedMap String String)}
    (node : Node) (h : Knows scope around) (hfit : ∀ site ∈ sitesFrom around node, site.IsFit) :
    Buildable scope node ↔ ∀ site ∈ sitesFrom around node, ¬ site.IsUndeclared := by
  rw [sitesFrom_eq_cons, List.forall_mem_cons] at hfit ⊢
  have hknows := h.extend hfit.1
  obtain ⟨name, index, text, attributes, children⟩ := node
  rw [Buildable, ← hasHead_iff hknows hfit.1, ← allBuildable_iff children hknows hfit.2]
  -- The head of a node is the same without its children.
  exact and_congr_left fun _ => ⟨fun ⟨hname, hdeclared, hattributes⟩ =>
    ⟨hname, hdeclared, hattributes⟩, fun ⟨hname, hdeclared, hattributes⟩ =>
    ⟨hname, hdeclared, hattributes⟩⟩

theorem allBuildable_iff {scope : List Declaration} {around : List (OrderedMap String String)}
    (nodes : List Node) (h : Knows scope around)
    (hfit : ∀ site ∈ sitesOfAll around nodes, site.IsFit) :
    AllBuildable scope nodes ↔ ∀ site ∈ sitesOfAll around nodes, ¬ site.IsUndeclared := by
  cases nodes with
  | nil => simp [AllBuildable, sitesOfAll]
  | cons node rest =>
      rw [sitesOfAll, List.forall_mem_append] at hfit ⊢
      rw [AllBuildable, buildable_iff node h hfit.1, allBuildable_iff rest h hfit.2]

end

mutual

/-- At each position the element looks as the site there does. -/
theorem viewAt?_of_build {scope : List Declaration} {around : List (OrderedMap String String)}
    {outer : Frames} {next : Nat} (node : Node) {found : Element × Nat} (h : Knows scope around)
    (hfit : ∀ site ∈ sitesFrom around node, site.IsFit)
    (hok : Element.build scope outer next node = .ok found) (position : List Nat) :
    found.1.viewAt? position = (siteFrom? around node position).bind Site.view? := by
  rw [sitesFrom_eq_cons, List.forall_mem_cons] at hfit
  have hknows := h.extend hfit.1
  obtain ⟨name, index, text, attributes, children⟩ := node
  obtain ⟨head, below, hhead, hchildren, hfound⟩ := build_eq_ok_iff.mp hok
  obtain ⟨hlength, hbelow⟩ := viewAt?_of_buildAll children hknows hfit.2 hchildren
  rw [hfound]
  cases position with
  | nil =>
      rw [siteFrom?, Option.bind_some, view_of_buildHead hknows hfit.1 hhead, ← hlength]
      rfl
  | cons i rest =>
      rw [siteFrom?, Option.bind_assoc]
      exact hbelow i rest

theorem viewAt?_of_buildAll {scope : List Declaration} {around : List (OrderedMap String String)}
    {outer : Frames} {next : Nat} (nodes : List Node) {found : List Element × Nat}
    (h : Knows scope around) (hfit : ∀ site ∈ sitesOfAll around nodes, site.IsFit)
    (hok : Element.buildAll scope outer next nodes = .ok found) :
    found.1.length = nodes.length ∧ ∀ (i : Nat) (rest : List Nat),
      (found.1[i]?.bind fun child => child.viewAt? rest) =
        nodes[i]?.bind fun node => (siteFrom? around node rest).bind Site.view? := by
  cases nodes with
  | nil =>
      obtain rfl := Except.ok.inj hok
      simp
  | cons node rest =>
      rw [sitesOfAll, List.forall_mem_append] at hfit
      obtain ⟨first, number, others, hfirst, hothers, hfound⟩ := buildAll_cons_eq_ok_iff.mp hok
      obtain ⟨hlength, hrest⟩ := viewAt?_of_buildAll rest h hfit.2 hothers
      rw [hfound]
      refine ⟨by rw [List.length_cons, List.length_cons, hlength], fun i position => ?_⟩
      cases i with
      | zero => exact viewAt?_of_build node h hfit.1 hfirst position
      | succ i => exact hrest i position

end

end Trees

/-! ## Documents -/

/-- The names of a document are resolved by the nearest declarations. -/
structure ResolvesNearest (document : Node) : Prop where
  /-- A prefix is at fault exactly if one is declared neither by the node that uses it nor around
  that node. -/
  fails_iff : (∃ declared name,
      Element.ofNode document = .error (.undeclaredPrefix declared name)) ↔
    ∃ site ∈ sites document, site.IsUndeclared
  /-- Otherwise there is an element that looks at each position as the site there does. -/
  resolved : (∀ site ∈ sites document, ¬ site.IsUndeclared) →
    ∃ element, Element.ofNode document = .ok element ∧
      ∀ position, element.viewAt? position = (siteAt? document position).bind Site.view?
  /-- Attributes of a node, declarations among them, change nothing but what is seen at the node and
  below it. -/
  elsewhere : ∀ attributes place element other,
    (∀ site ∈ sites (withAttributesAt attributes place document), site.IsFit) →
    Element.ofNode document = .ok element →
    Element.ofNode (withAttributesAt attributes place document) = .ok other →
    ∀ position, ¬ place <+: position → other.viewAt? position = element.viewAt? position
  /-- Where declarations stand among the attributes changes nothing at all. -/
  reordered : ∀ reordered element,
    (∀ position, Option.Rel Site.Reorders (siteAt? document position)
      (siteAt? reordered position)) →
    Element.ofNode document = .ok element →
    ∃ other, Element.ofNode reordered = .ok other ∧
      ∀ position, other.viewAt? position = element.viewAt? position

section Documents

variable {document : Node}

theorem viewAt?_of_ofNode {element : Element} (hfit : ∀ site ∈ sites document, site.IsFit)
    (hok : Element.ofNode document = .ok element) (position : List Nat) :
    element.viewAt? position = (siteAt? document position).bind Site.view? := by
  obtain ⟨found, hbuild, rfl⟩ := map_eq_ok_iff.mp hok
  exact viewAt?_of_build document knows_nil hfit hbuild position

theorem succeeds_ofNode_iff (hfit : ∀ site ∈ sites document, site.IsFit) :
    Succeeds (Element.ofNode document) ↔ ∀ site ∈ sites document, ¬ site.IsUndeclared := by
  rw [Element.ofNode, succeeds_map, succeeds_build, buildable_iff document knows_nil hfit]
  rfl

theorem ofNode_fails_iff (hfit : ∀ site ∈ sites document, site.IsFit) :
    (∃ declared name, Element.ofNode document = .error (.undeclaredPrefix declared name)) ↔
      ∃ site ∈ sites document, site.IsUndeclared := by
  have hfails : FailsWith BuildFault.IsOfPrefix (Element.ofNode document) :=
    (failsWith_build document knows_nil hfit).map _
  constructor
  · rintro ⟨declared, name, hfault⟩
    by_contra hnone
    obtain ⟨element, hok⟩ := (succeeds_ofNode_iff hfit).mpr fun site hsite hundeclared =>
      hnone ⟨site, hsite, hundeclared⟩
    rw [hok] at hfault
    nomatch hfault
  · rintro ⟨site, hsite, hundeclared⟩
    cases hresult : Element.ofNode document with
    | ok element =>
        exact absurd hundeclared ((succeeds_ofNode_iff hfit).mp ⟨element, hresult⟩ site hsite)
    | error fault =>
        obtain ⟨declared, name, rfl⟩ := hfails fault hresult
        exact ⟨declared, name, rfl⟩

theorem bind_view?_eq_of_rel {first second : Option Site}
    (h : Option.Rel Site.Reorders first second) :
    first.bind Site.view? = second.bind Site.view? := by
  cases h with
  | none => rfl
  | some hreorders => exact hreorders.view?_eq

/-- Sites that are those of another document but for the order of declarations look the same. -/
theorem exists_site_of_reorders {reordered : Node}
    (h : ∀ position, Option.Rel Site.Reorders (siteAt? document position)
      (siteAt? reordered position)) :
    ∀ site ∈ sites reordered, ∃ original ∈ sites document, original.Reorders site := by
  intro site hsite
  obtain ⟨position, hposition⟩ := mem_sites_iff.mp hsite
  have hrel := h position
  rw [hposition] at hrel
  cases horiginal : siteAt? document position with
  | none =>
      rw [horiginal] at hrel
      nomatch hrel
  | some original =>
      rw [horiginal] at hrel
      cases hrel with
      | some hreorders => exact ⟨original, mem_sites_iff.mpr ⟨position, horiginal⟩, hreorders⟩

/-- In a document that is fit for XML, names are resolved by the nearest declarations. -/
theorem resolvesNearest (hfit : ∀ site ∈ sites document, site.IsFit) :
    ResolvesNearest document where
  fails_iff := ofNode_fails_iff hfit
  resolved := by
    intro hdeclared
    obtain ⟨element, hok⟩ := (succeeds_ofNode_iff hfit).mpr hdeclared
    exact ⟨element, hok, viewAt?_of_ofNode hfit hok⟩
  elsewhere := by
    intro attributes place element other hotherFit hok hother position helsewhere
    rw [viewAt?_of_ofNode hfit hok, viewAt?_of_ofNode hotherFit hother, siteAt?, siteAt?,
      siteFrom?_withAttributesAt helsewhere]
  reordered := by
    intro reordered element hreordered hok
    have hsites := exists_site_of_reorders hreordered
    have hreorderedFit : ∀ site ∈ sites reordered, site.IsFit := by
      intro site hsite
      obtain ⟨original, horiginal, hreorders⟩ := hsites site hsite
      exact hreorders.isFit (hfit original horiginal)
    have hdeclared : ∀ site ∈ sites reordered, ¬ site.IsUndeclared := by
      intro site hsite
      obtain ⟨original, horiginal, hreorders⟩ := hsites site hsite
      rw [isUndeclared_iff, ← hreorders.view?_eq, ← isUndeclared_iff]
      exact (succeeds_ofNode_iff hfit).mp ⟨element, hok⟩ original horiginal
    obtain ⟨other, hother⟩ := (succeeds_ofNode_iff hreorderedFit).mpr hdeclared
    refine ⟨other, hother, fun position => ?_⟩
    rw [viewAt?_of_ofNode hfit hok, viewAt?_of_ofNode hreorderedFit hother,
      bind_view?_eq_of_rel (hreordered position)]

end Documents

/-- A document in which a child declares the prefix of its root anew and switches the default
namespace off. -/
def shadowingDocument : Node where
  name := "p:outer"
  index := 1
  text := none
  attributes := .ofList [("p:mark", "a"), ("xmlns:p", "urn:first"), ("xmlns", "urn:default")]
  children :=
    [⟨"inner", 1, none, .ofList [("xmlns:p", "urn:second"), ("p:mark", "b"), ("xmlns", "")],
      [⟨"p:leaf", 1, some "text", .empty, []⟩]⟩,
      ⟨"inner", 2, none, .ofList [("p:mark", "c"), ("mark", "d")], []⟩]

theorem shadowing_resolvesNearest :
    (∀ site ∈ sites shadowingDocument, site.IsFit) ∧ ResolvesNearest shadowingDocument ∧
      ∃ element, Element.ofNode shadowingDocument = .ok element ∧
        element.viewAt? [0] = some ⟨⟨none, "inner"⟩, [(⟨some "urn:second", "mark"⟩, "b")], none, 1⟩ ∧
        element.viewAt? [0, 0] = some ⟨⟨some "urn:second", "leaf"⟩, [], some "text", 0⟩ ∧
        element.viewAt? [1] = some ⟨⟨some "urn:default", "inner"⟩,
          [(⟨some "urn:first", "mark"⟩, "c"), (⟨none, "mark"⟩, "d")], none, 0⟩ := by
  have hfit : ∀ site ∈ sites shadowingDocument, site.IsFit := by decide +kernel
  have hdeclared : ∀ site ∈ sites shadowingDocument, ¬ site.IsUndeclared := by
    have hviews : ∀ site ∈ sites shadowingDocument, site.view?.isSome = true := by decide +kernel
    intro site hsite hundeclared
    have hview := hviews site hsite
    rw [isUndeclared_iff.mp hundeclared] at hview
    nomatch hview
  have hresolves := resolvesNearest hfit
  obtain ⟨element, hok, hviews⟩ := hresolves.resolved hdeclared
  refine ⟨hfit, hresolves, element, hok, ?_, ?_, ?_⟩
  · rw [hviews]
    decide +kernel
  · rw [hviews]
    decide +kernel
  · rw [hviews]
    decide +kernel

end GeoMetadata.Xml
