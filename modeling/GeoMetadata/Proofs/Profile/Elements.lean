import GeoMetadata.Proofs.Document.Siblings
import GeoMetadata.Proofs.Path.Below
import GeoMetadata.Proofs.Profile.Ids

/-!
# The elements of one name in a document

The elements of a name are made of what the sections write below them, one element for each index
that is written (`childrenAt_documentOf`).  The indices are 1, 2, 3 and so on, so that nothing has
to be said about their order: it is enough to know what is seen from the element of each index.
Writes whose templates do not lead through the name are not seen from any
(`seenFrom_eq_nil_of_not_leadsThrough`), so that one section is enough if the others do not lead
there (`exists_seenFrom_of_section`).

A section that writes such elements does so in rounds, or in passes of which each writes one value
of every element (`seenFrom_eachFrom`).  Either way each element is made of its own round
(`childrenAt_documentOf_of_rounds`).

The trees themselves are spelled out with `holder`, `textElement` and the like, and what is written
about them with lists of placements as seen from the element, so that the one is computed from the
other.
-/

namespace GeoMetadata.Profile

open Document (Trail Placement elements indexAt? seenFrom place roundAt)
open GeoMetadata.Path (Template TemplateSegment)

variable {source : Source} {tracker : Assignments} {given : List Contribution}
  {writes : List Write} {trail : Trail} {name : String} {n : Nat}

/-! ## Related lists -/

section Related

variable {α β γ : Type} {R : α → β → Prop} {S : β → γ → Prop} {xs : List α} {ys : List β}
  {zs : List γ}

/-- Related lists are related index by index. -/
theorem forall₂_zipIdx (h : List.Forall₂ R xs ys) (first : Nat) :
    List.Forall₂ (fun x y => R x.1 y.1 ∧ x.2 = y.2) (xs.zipIdx first) (ys.zipIdx first) := by
  induction h generalizing first with
  | nil => exact .nil
  | cons hxy _ ih => exact .cons ⟨hxy, rfl⟩ (ih (first + 1))

theorem forall₂_comp (h : List.Forall₂ R xs ys) (h' : List.Forall₂ S ys zs) :
    List.Forall₂ (fun x z => ∃ y, R x y ∧ S y z) xs zs := by
  induction h generalizing zs with
  | nil =>
      cases h'
      exact .nil
  | cons hxy _ ih =>
      cases h' with
      | cons hyz h' => exact .cons ⟨_, hxy, hyz⟩ (ih h')

/-- What is taken from a list belongs to those of its items that give something. -/
theorem forall₂_filterMap (f : α → Option β) (xs : List α) :
    List.Forall₂ (fun x y => f x = some y) (xs.filter fun x => (f x).isSome) (xs.filterMap f) := by
  induction xs with
  | nil => exact .nil
  | cons x rest ih =>
      cases hx : f x with
      | none => simpa [hx] using ih
      | some y => simpa [hx] using ih

end Related

/-! ## Elements -/

/-- An element that holds one other. -/
def holder (name : String) (index : Int) (child : Node) : Node := ⟨name, index, none, .empty, [child]⟩

/-- An element with a text. -/
def textElement (name text : String) : Node := ⟨name, 1, some text, .empty, []⟩

/-- An identifier with its code and code space. -/
def identifierElement (code codeSpace : String) : Node :=
  ⟨"RS_Identifier", 1, none, .empty,
    [holder "code" 1 (textElement "gco:CharacterString" code),
      holder "codeSpace" 1 (textElement "gco:CharacterString" codeSpace)]⟩

/-- The segments that lead from an element through single ones. -/
def downTo (names : List String) : List Segment := names.map fun name => .element name 1

/-- What is written about an identifier, as seen from an element that holds it. -/
def identifierPlacements (within : List String) (code codeSpace : String) : List Placement :=
  [(downTo (within ++ ["RS_Identifier", "code", "gco:CharacterString"]), code),
    (downTo (within ++ ["RS_Identifier", "codeSpace", "gco:CharacterString"]), codeSpace)]

/-! ## The elements of a name -/

/-- The elements of a name at a trail, each made of what is seen from it. -/
theorem childrenAt_documentOf (h : Composed source tracker (allWrites given))
    (hgiven : contributions source = .ok given)
    (hcounter : ((Layout.rootName, 1) :: trail, name) ≠ resourceConstraints) {count : Nat}
    (hseen : ∀ n, seenFrom (trail ++ [((name, n) : String × Nat)])
      ((allWrites given).map Write.placement) ≠ [] ↔ n ∈ List.range' 1 count) :
    (documentOf given).childrenAt trail.address name = (List.range' 1 count).map fun n =>
      place (seenFrom (trail ++ [((name, n) : String × Nat)])
        ((allWrites given).map Write.placement)) (.leaf name n) := by
  have hindices := filterMap_indexAt?_placement h.arranged.mem trail name
  obtain ⟨other, hrange⟩ := exists_indicesAt_eq_range hcounter h.arranged.mem hgiven
  rw [indicesAt, ← hindices] at hrange
  have hmem (n : Nat) : n ∈ List.range' 1 other ↔ n ∈ List.range' 1 count := by
    rw [← hrange, ← hseen, Document.seenFrom_ne_nil_iff, List.mem_eraseDups, List.mem_filterMap]
    simp only [Document.indexAt?_eq_some_iff]
  -- Two ranges from 1 on with the same members have the same end.
  have hsame : other = count := by
    simp only [List.mem_range'_1] at hmem
    have hle := hmem other
    have hge := hmem count
    omega
  rw [documentOf, Document.childrenAt_place, hrange, hsame]

/-- If the elements of a name are written in rounds, each is made of its own round. -/
theorem childrenAt_documentOf_of_rounds (h : Composed source tracker (allWrites given))
    (hgiven : contributions source = .ok given)
    (hcounter : ((Layout.rootName, 1) :: trail, name) ≠ resourceConstraints)
    {rounds : List (List Placement)} (hrounds : [] ∉ rounds)
    (hseen : ∀ n, seenFrom (trail ++ [((name, n) : String × Nat)])
      ((allWrites given).map Write.placement) = roundAt 1 rounds n) :
    (documentOf given).childrenAt trail.address name =
      (rounds.zipIdx 1).map fun entry => place entry.1 (.leaf name entry.2) := by
  have hwritten (n : Nat) : seenFrom (trail ++ [((name, n) : String × Nat)])
      ((allWrites given).map Write.placement) ≠ [] ↔ n ∈ List.range' 1 rounds.length := by
    rw [hseen, Document.roundAt_ne_nil_iff hrounds]
  rw [childrenAt_documentOf h hgiven hcounter hwritten, ← map_snd_zipIdx rounds 1, List.map_map]
  refine List.map_congr_left fun entry hentry => ?_
  rw [Function.comp_apply, hseen, Document.roundAt_of_mem_zipIdx hentry]

/-! ## What is seen from an element -/

/-- The template leads through elements of some names, one below the other from the root on. -/
def LeadsThrough (names : List String) (template : Template) : Prop :=
  names <+: (template.map TemplateSegment.name).tail

instance (names : List String) (template : Template) : Decidable (LeadsThrough names template) :=
  inferInstanceAs (Decidable (_ <+: _))

/-- Writes whose templates do not lead through the elements of a name are not seen from them. -/
theorem seenFrom_eq_nil_of_not_leadsThrough
    (hwrites : ∀ write ∈ writes, ¬LeadsThrough (trail.map Prod.fst ++ [name]) write.template)
    (n : Nat) :
    seenFrom (trail ++ [((name, n) : String × Nat)]) (writes.map Write.placement) = [] := by
  refine Document.seenFrom_eq_nil (List.forall_mem_map.mpr fun write hwrite hprefix => ?_)
  refine hwrites write hwrite ?_
  have hnames := hprefix.map Segment.name
  rw [Write.placement, Write.segments, List.map_tail, Path.map_name_segments, elements,
    List.map_map, List.map_append] at hnames
  exact hnames

/-- If what is written before and after does not lead through the elements of a name, then what is
seen from them is what is written in between. -/
theorem seenFrom_between {before own after : List Write} {earlier later : List Template}
    (hbefore : ∀ write ∈ before, write.template ∈ earlier)
    (hafter : ∀ write ∈ after, write.template ∈ later)
    (helsewhere : ∀ template ∈ earlier ++ later,
      ¬LeadsThrough (trail.map Prod.fst ++ [name]) template) (n : Nat) :
    seenFrom (trail ++ [((name, n) : String × Nat)])
        ((before ++ (own ++ after)).map Write.placement) =
      seenFrom (trail ++ [((name, n) : String × Nat)]) (own.map Write.placement) := by
  rw [List.forall_mem_append] at helsewhere
  have hnoneBefore := @seenFrom_eq_nil_of_not_leadsThrough before trail name
    (fun write hwrite => helsewhere.1 _ (hbefore write hwrite)) n
  have hnoneAfter := @seenFrom_eq_nil_of_not_leadsThrough after trail name
    (fun write hwrite => helsewhere.2 _ (hafter write hwrite)) n
  rw [List.map_append, List.map_append, Document.seenFrom_append, Document.seenFrom_append,
    hnoneBefore, hnoneAfter, List.nil_append, List.append_nil]

/-- If no other section leads through the elements of a name, then what is seen from them is what
one section writes. -/
theorem exists_seenFrom_of_section {part : Section} (hpart : sections[n]? = some part)
    (hgiven : contributions source = .ok given)
    (helsewhere : ∀ template ∈ (sectionTemplates.take n).flatten
      ++ (sectionTemplates.drop (n + 1)).flatten,
        ¬LeadsThrough (trail.map Prod.fst ++ [name]) template) :
    ∃ own progress, part.contribute source progress = .ok own ∧
      ∀ k, seenFrom (trail ++ [((name, k) : String × Nat)])
          ((allWrites given).map Write.placement) =
        seenFrom (trail ++ [((name, k) : String × Nat)]) (own.writes.map Write.placement) := by
  obtain ⟨before, own, after, progress, hown, hall, hbefore, hafter⟩ :=
    exists_allWrites_split hpart hgiven
  refine ⟨own, progress, hown, fun k => ?_⟩
  rw [hall]
  exact seenFrom_between hbefore hafter helsewhere k

theorem seenFrom_of_plain {label : String} {write : Source → List Write}
    (hpart : sections[n]? = some (.plain label write)) (hgiven : contributions source = .ok given)
    (helsewhere : ∀ template ∈ (sectionTemplates.take n).flatten
      ++ (sectionTemplates.drop (n + 1)).flatten,
        ¬LeadsThrough (trail.map Prod.fst ++ [name]) template) (k : Nat) :
    seenFrom (trail ++ [((name, k) : String × Nat)]) ((allWrites given).map Write.placement) =
      seenFrom (trail ++ [((name, k) : String × Nat)]) ((write source).map Write.placement) := by
  obtain ⟨own, progress, hown, hseen⟩ := exists_seenFrom_of_section hpart hgiven helsewhere
  obtain rfl := Except.ok.inj hown
  exact hseen k

theorem seenFrom_of_checked {label : String} {write : Source → Except ConversionFault (List Write)}
    (hpart : sections[n]? = some (.checked label write))
    (hgiven : contributions source = .ok given) (hwrites : write source = .ok writes)
    (helsewhere : ∀ template ∈ (sectionTemplates.take n).flatten
      ++ (sectionTemplates.drop (n + 1)).flatten,
        ¬LeadsThrough (trail.map Prod.fst ++ [name]) template) (k : Nat) :
    seenFrom (trail ++ [((name, k) : String × Nat)]) ((allWrites given).map Write.placement) =
      seenFrom (trail ++ [((name, k) : String × Nat)]) (writes.map Write.placement) := by
  obtain ⟨own, progress, hown, hseen⟩ := exists_seenFrom_of_section hpart hgiven helsewhere
  obtain ⟨others, hothers, rfl⟩ := map_eq_ok_iff.mp hown
  obtain rfl := Except.ok.inj (hwrites.symm.trans hothers)
  exact hseen k

/-- A value that an element of a name has if there is one. -/
theorem seenFrom_optional {template : Template} {inner : List Segment}
    (htemplate : ∀ value, (Write.only template value).placement =
      (elements (trail ++ [((name, 1) : String × Nat)]) ++ inner, value))
    (value : Option String) (n : Nat) :
    seenFrom (trail ++ [((name, n) : String × Nat)])
        ((optional template value).map Write.placement) =
      roundAt 1 (value.toList.map fun value => [(inner, value)]) n := by
  rw [← Document.seenFrom_rounds name trail]
  cases value with
  | none => rfl
  | some value => exact congrArg _ (congrArg (fun p => [p]) (htemplate value))

/-- Writes in rounds, each about one element of a name. -/
theorem seenFrom_flatMap_zipIdx {α : Type} {round : α → Nat → List Write}
    {parts : α → List Placement} (hround : ∀ item k, (round item k).map Write.placement =
      (parts item).map fun p => (elements (trail ++ [((name, k) : String × Nat)]) ++ p.1, p.2))
    (items : List α) (first n : Nat) :
    seenFrom (trail ++ [((name, n) : String × Nat)])
        (((items.zipIdx first).flatMap fun entry => round entry.1 entry.2).map Write.placement) =
      roundAt first (items.map parts) n := by
  rw [← Document.seenFrom_rounds name trail (items.map parts) first n, List.map_flatMap,
    List.zipIdx_map, List.flatMap_map]
  exact congrArg _ (List.flatMap_congr fun entry _ => hround entry.1 entry.2)

/-- A pass that writes one value of each element of a name. -/
theorem seenFrom_eachFrom {α : Type} {template : Template} {inner : List Segment}
    (htemplate : ∀ k value, (⟨template, k, value⟩ : Write).placement =
      (elements (trail ++ [((name, k) : String × Nat)]) ++ inner, value))
    (items : List α) (value : α → String) (first n : Nat) :
    seenFrom (trail ++ [((name, n) : String × Nat)])
        ((eachFrom first template (items.map value)).map Write.placement) =
      roundAt first (items.map fun item => [(inner, value item)]) n := by
  have hpass : eachFrom first template (items.map value) =
      (items.zipIdx first).flatMap fun entry => [⟨template, entry.2, value entry.1⟩] := by
    rw [eachFrom, List.zipIdx_map, List.map_map]
    exact List.map_eq_flatMap
  have hround (item : α) (k : Nat) :
      ([⟨template, k, value item⟩] : List Write).map Write.placement =
        [(inner, value item)].map fun p =>
          (elements (trail ++ [((name, k) : String × Nat)]) ++ p.1, p.2) := by
    rw [List.map_singleton, htemplate, List.map_singleton]
  rw [hpass]
  exact seenFrom_flatMap_zipIdx hround items first n

/-- Identifiers that are written in two passes, first the codes and then the code spaces. -/
theorem seenFrom_identifierPasses {α : Type} {places : Layout.IdentifierPlaces}
    {within : List String}
    (hcode : ∀ k value, (⟨places.code, k, value⟩ : Write).placement =
      (elements (trail ++ [((name, k) : String × Nat)])
        ++ downTo (within ++ ["RS_Identifier", "code", "gco:CharacterString"]), value))
    (hcodeSpace : ∀ k value, (⟨places.codeSpace, k, value⟩ : Write).placement =
      (elements (trail ++ [((name, k) : String × Nat)])
        ++ downTo (within ++ ["RS_Identifier", "codeSpace", "gco:CharacterString"]), value))
    (items : List α) (code codeSpace : α → String) (first n : Nat) :
    seenFrom (trail ++ [((name, n) : String × Nat)])
        ((eachFrom first places.code (items.map code)
          ++ eachFrom first places.codeSpace (items.map codeSpace)).map Write.placement) =
      roundAt first
        (items.map fun item => identifierPlacements within (code item) (codeSpace item)) n := by
  rw [List.map_append, Document.seenFrom_append, seenFrom_eachFrom hcode, seenFrom_eachFrom hcodeSpace,
    Document.roundAt_map_append]
  rfl

end GeoMetadata.Profile
