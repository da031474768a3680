import GeoMetadata.Proofs.Number.Canonical
import GeoMetadata.Proofs.Number.DecimalText
import GeoMetadata.Proofs.Profile.Nulls
import GeoMetadata.Proofs.Profile.TemporalElements
import GeoMetadata.Proofs.Profile.Values

/-!
# The order of the altitudes

The vertical extent of a document is that of the altitudes of the record: the least and the greatest
of them, as they are found from the left (`exists_verticalElements`).  Values in another order give
altitudes in another order, and the record can still be converted (`succeeds_assignments_setting`).

The least and the greatest are numbers of the list on the right side of all others, and so do not
depend on the order, except where numbers are not told apart by comparing them.  This is so of NaN,
which stays if it comes first, and of the two zeros, of which the first stays:

```text
the altitudes               the extent                   in other orders
only NaN                    NaN                          the same
NaN first, then a number    NaN                          not, if the number is first
a number first, then NaN    that of the numbers          NaN, if it is first
both zeros at an end        there the zero found first   the other zero, if it is first
otherwise                   the least and the greatest   the same
```

So the extent is fixed in the first and the last case (`HasFixedExtremes`).  There any two orders
have extremes that bound each other, and such numbers are one (`ofExtremes_perm`).  In the others it
is enough to have one value come first that did not (`hasFixedExtremes_of_forall`).  Two numbers
that compare as equal are one only in canonical form, which rounding always gives.
-/

namespace GeoMetadata.Profile

open Document (Trail Placement seenFrom roundAt)
open Number (Binary64 shortText)
open Number.Binary64 (zero least? greatest?)

variable {source : Source} {tracker : Assignments} {given : List Contribution} {record : Record}
  {name : String} {values : List Value} {xs ys : List Binary64}
  {x y least greatest : Binary64}

/-! ## The elements -/

/-- The vertical element with a least and a greatest altitude. -/
def verticalElement (least greatest : Binary64) : Node :=
  holder "verticalElement" 1 ⟨"EX_VerticalExtent", 1, none, .empty,
    [holder "minimumValue" 1 (textElement "gco:Real" (decimalText least)),
      holder "maximumValue" 1 (textElement "gco:Real" (decimalText greatest)),
      ⟨"verticalCRS", 1, none,
        .ofList [("xlink:href", verticalCrsHref), ("xlink:title", verticalCrsTitle)], []⟩]⟩

/-- What is written about the least and the greatest altitude, as seen from the element. -/
def verticalPlacements (least greatest : Binary64) : List Placement :=
  [(downTo ["EX_VerticalExtent", "minimumValue", "gco:Real"], decimalText least),
    (downTo ["EX_VerticalExtent", "maximumValue", "gco:Real"], decimalText greatest),
    (downTo ["EX_VerticalExtent", "verticalCRS"] ++ [.attr "xlink:href"], verticalCrsHref),
    (downTo ["EX_VerticalExtent", "verticalCRS"] ++ [.attr "xlink:title"], verticalCrsTitle)]

/-- What is made of the least and the greatest altitude, if there are any. -/
def ofExtremes {α : Type} (make : Binary64 → Binary64 → α) (altitudes : List Binary64) : List α :=
  match least? altitudes, greatest? altitudes with
  | some least, some greatest => [make least greatest]
  | _, _ => []

/-- The numbers among the altitudes of a record. -/
def altitudes (record : Record) : List Binary64 :=
  (record.values Attribute.altitude).filterMap fun value => value.number?.join

theorem filterMap_id_of_mapM_number? {numbers : List (Option Binary64)}
    (h : values.mapM Value.number? = some numbers) :
    numbers.filterMap id = values.filterMap fun value => value.number?.join := by
  induction values generalizing numbers with
  | nil =>
      obtain rfl := Option.some.inj h
      rfl
  | cons value rest ih =>
      obtain ⟨number, hnumber, others, hothers, rfl⟩ := by
        simpa [List.mapM_cons, Option.bind_eq_some_iff] using h
      rw [List.filterMap_cons, List.filterMap_cons, hnumber, ih hothers]
      rfl

/-- The section on the altitudes writes the extremes of those that are numbers. -/
theorem seenFrom_verticalElement (hgiven : contributions source = .ok given) (n : Nat) :
    seenFrom (extentTrail ++ [(("verticalElement", n) : String × Nat)])
        ((allWrites given).map Write.placement) =
      roundAt 1 (ofExtremes verticalPlacements (altitudes source.record)) n := by
  obtain ⟨writes, hwrites, -⟩ := exists_subset_of_checked (n := 21) rfl hgiven
  rw [seenFrom_of_checked (n := 21) rfl hgiven hwrites (by decide +kernel),
    ← Document.seenFrom_rounds "verticalElement" extentTrail]
  rw [verticalWrites] at hwrites
  split at hwrites
  · cases hwrites
  · rename_i numbers hnumbers
    obtain ⟨read, hread, rfl⟩ := Option.map_eq_some_iff.mp hnumbers
    rw [altitudes, ← filterMap_id_of_mapM_number? hread]
    cases hlist : read.filterMap id with
    | nil =>
        rw [hlist] at hwrites
        obtain rfl := Except.ok.inj hwrites
        rfl
    | cons x xs =>
        rw [hlist] at hwrites
        obtain rfl := Except.ok.inj hwrites
        rfl

/-- The vertical elements of a document. -/
def verticalElements (document : Node) : List Node :=
  document.childrenAt (Trail.address extentTrail) "verticalElement"

/-- A document has one vertical element, with the extremes of the altitudes, or none if there are no
altitudes. -/
theorem exists_verticalElements (hok : assignments source = .ok tracker) :
    ∃ document, Converter.assemble tracker = .ok document ∧
      verticalElements document = ofExtremes verticalElement (altitudes source.record) := by
  obtain ⟨given, hgiven, hcomposed⟩ := exists_composed hok
  refine ⟨documentOf given, hcomposed.placed.assembled, ?_⟩
  rw [verticalElements, childrenAt_documentOf_of_rounds hcomposed hgiven (by decide) ?rounds
    (seenFrom_verticalElement hgiven)]
  · cases altitudes source.record <;> rfl
  case rounds =>
    cases altitudes source.record with
    | nil => exact List.not_mem_nil
    | cons => exact List.not_mem_cons_of_ne_of_not_mem (List.cons_ne_nil _ _).symm List.not_mem_nil

/-! ## Another order

The values are put in another order, nulls and all.  What the section sees of them is in another
order too, and it may have any of its numbers first. -/

theorem values_set (record : Record) (name : String) (values : List Value) :
    (record.set name values).values name = values.filter (!·.isNull) := by
  rw [Record.values, Record.set, OrderedMap.get?_insert, if_pos rfl]
  rfl

/-- Values in another order are the same values without nulls, in another order. -/
theorem perm_values_set (h : values.Perm (allValues record name)) :
    ((record.set name values).values name).Perm (record.values name) := by
  rw [values_set]
  exact h.filter _

theorem perm_altitudes_set (h : values.Perm (allValues record Attribute.altitude)) :
    (altitudes (record.set Attribute.altitude values)).Perm (altitudes record) :=
  (perm_values_set h).filterMap _

/-- Any altitude comes first in some order of the values. -/
theorem exists_head?_altitudes_set (hx : x ∈ altitudes record) :
    ∃ values, values.Perm (allValues record Attribute.altitude) ∧
      (altitudes (record.set Attribute.altitude values)).head? = some x := by
  obtain ⟨value, hvalue, hnumber⟩ := List.mem_filterMap.mp hx
  obtain ⟨hmem, hnull⟩ := List.mem_filter.mp hvalue
  obtain ⟨before, after, hall⟩ := List.append_of_mem hmem
  refine ⟨value :: (before ++ after), ?_, ?_⟩
  · rw [allValues, hall]
    exact List.perm_middle.symm
  · rw [altitudes, values_set, List.filter_cons, if_pos hnull, List.filterMap_cons, hnumber]
    rfl

/-- The attributes that conversions read beside the altitudes. -/
def otherAttributes : List String := readAttributes.filter (· ≠ Attribute.altitude)

/-- Other altitudes leave the rest of what a conversion takes for granted as it is. -/
theorem Convertible.setting_altitude (h : Convertible source)
    (haltitudes : ∀ n, .int n ∈ values → n.natAbs < Number.overflowMagnitude) :
    Convertible (source.setting Attribute.altitude values) := by
  -- All conditions but one are on other attributes.
  have hagree := @Source.agreeOn_setting otherAttributes Attribute.altitude (by decide) source values
  have hstamp := stampDate_eq (hagree.mono (by decide))
  have hdates := citationDates_eq (hagree.mono (by decide))
  have hlanguages := resourceLanguages_eq (hagree.mono (by decide))
  have hrelease (protection : Attribute.Protection)
      (hprotection : protectionAttributes protection ⊆ otherAttributes) :
      Releasable protection (source.setting Attribute.altitude values).record ↔
        Releasable protection source.record := by
    have hsecurity := hagree.record.mono hprotection
    simp only [Releasable, hsecurity.value? protection.dissemination (by simp [protectionAttributes]),
      hsecurity.values protection.releasability (by simp [protectionAttributes])]
  have hlocation : locationText? (source.setting Attribute.altitude values).record =
      locationText? source.record := by
    simp (disch := decide) only [locationText?, hagree.record.string?]
  have hcounts : occurrenceCounts (source.setting Attribute.altitude values) =
      occurrenceCounts source := by
    simp (disch := decide) only [occurrenceCounts, partyCounts, locationCount, extentCount, hlocation,
      hlanguages, hagree.record.strings, hagree.record.moments, List.map_cons, List.map_nil]
  constructor
  case stamp => exact hstamp ▸ h.stamp
  case citation => exact hdates ▸ h.citation
  case extents =>
    rw [hagree.record.moments Attribute.start (by decide),
      hagree.record.moments Attribute.end (by decide)]
    exact h.extents
  case altitudes =>
    intro n hn
    rw [Source.setting, values_set] at hn
    exact haltitudes n (List.mem_of_mem_filter hn)
  case rating =>
    rw [hagree.record.value? Attribute.imageryRating (by decide)]
    exact h.rating
  case resource => exact (hrelease _ (by decide)).mpr h.resource
  case metadata => exact (hrelease _ (by decide)).mpr h.metadata
  case location => exact hlocation ▸ h.location
  case occurrences => exact hcounts ▸ h.occurrences

/-- A record that can be converted still can with its altitudes in another order. -/
theorem succeeds_assignments_setting (hok : assignments source = .ok tracker)
    (h : values.Perm (allValues source.record Attribute.altitude)) :
    Succeeds (assignments (source.setting Attribute.altitude values)) := by
  have hconvertible := clearFrom_sections_iff.mp (succeeds_assignments.mp ⟨tracker, hok⟩)
  refine succeeds_assignments.mpr (clearFrom_sections_iff.mpr (hconvertible.setting_altitude ?_))
  intro n hn
  exact hconvertible.altitudes n (List.mem_filter.mpr ⟨h.mem_iff.mp hn, rfl⟩)

/-! ## The extremes -/

/-- The vertical elements of a document show the extent of some altitudes. -/
structure ShowsExtent (altitudes : List Binary64) (nodes : List Node) : Prop where
  missing : altitudes = [] → nodes = []
  /-- NaN stays if it comes first. -/
  nanFirst : altitudes.head? = some .nan → nodes = [verticalElement .nan .nan]
  /-- Otherwise the others are between two of the altitudes. -/
  between : ∀ first, altitudes.head? = some first → first ≠ .nan →
    ∃ least ∈ altitudes, ∃ greatest ∈ altitudes, nodes = [verticalElement least greatest] ∧
      ∀ x ∈ altitudes, x ≠ .nan → least ≤ x ∧ x ≤ greatest

theorem exists_extremes {α : Type} (make : Binary64 → Binary64 → α) (hx : x ≠ .nan)
    (xs : List Binary64) :
    ∃ least ∈ x :: xs, ∃ greatest ∈ x :: xs, ofExtremes make (x :: xs) = [make least greatest] ∧
      ∀ y ∈ x :: xs, y ≠ .nan → least ≤ y ∧ y ≤ greatest := by
  -- NaN that does not come first is passed over, as it is neither less nor greater than anything.
  have hnan : Binary64.nan ∉ (x :: xs).filter Binary64.isPoint := fun h =>
    absurd (List.mem_filter.mp h).2 (by decide)
  obtain ⟨least, hleast⟩ : ∃ least, least? (x :: xs) = some least := ⟨_, rfl⟩
  obtain ⟨greatest, hgreatest⟩ : ∃ greatest, greatest? (x :: xs) = some greatest := ⟨_, rfl⟩
  obtain ⟨hleastMem, hleastLe⟩ :=
    Binary64.least?_eq_some hnan ((Binary64.least?_filter hx).trans hleast)
  obtain ⟨hgreatestMem, hleGreatest⟩ :=
    Binary64.greatest?_eq_some hnan ((Binary64.greatest?_filter hx).trans hgreatest)
  refine ⟨least, (List.mem_filter.mp hleastMem).1, greatest, (List.mem_filter.mp hgreatestMem).1, ?_,
    fun y hy hpoint => ?_⟩
  · rw [ofExtremes, hleast, hgreatest]
  · have hmem := List.mem_filter.mpr ⟨hy, Binary64.isPoint_iff.mpr hpoint⟩
    exact ⟨hleastLe y hmem, hleGreatest y hmem⟩

/-- NaN that comes first is the least and the greatest. -/
theorem ofExtremes_nan_cons {α : Type} (make : Binary64 → Binary64 → α) (xs : List Binary64) :
    ofExtremes make (.nan :: xs) = [make .nan .nan] := by
  rw [ofExtremes, Binary64.least?_eq_head fun y _ => Binary64.lt_nan y,
    Binary64.greatest?_eq_head fun y _ => Binary64.nan_lt y]

theorem showsExtent_ofExtremes (xs : List Binary64) :
    ShowsExtent xs (ofExtremes verticalElement xs) where
  missing h := by
    rw [h]
    rfl
  nanFirst h := by
    obtain ⟨rest, rfl⟩ := List.head?_eq_some_iff.mp h
    exact ofExtremes_nan_cons _ rest
  between first h hfirst := by
    obtain ⟨rest, rfl⟩ := List.head?_eq_some_iff.mp h
    exact exists_extremes verticalElement hfirst rest

/-! ## Altitudes whose order does not matter -/

/-- Both zeros are among the numbers. -/
def MixesZeros (xs : List Binary64) : Prop := zero true ∈ xs ∧ zero false ∈ xs

/-- The extremes of the altitudes are the same numbers in every order: NaN is not mixed with other
numbers, and neither extreme is a choice between the two zeros. -/
def HasFixedExtremes (altitudes : List Binary64) : Prop :=
  (∀ x ∈ altitudes, x = .nan) ∨ .nan ∉ altitudes ∧
    ¬(MixesZeros altitudes ∧
      ((∀ x ∈ altitudes, zero false ≤ x) ∨ ∀ x ∈ altitudes, x ≤ zero false))

theorem mixesZeros_of_ne {s t : Bool} (hne : s ≠ t) (hs : zero s ∈ xs) (ht : zero t ∈ xs) :
    MixesZeros xs := by
  cases s <;> cases t
  · exact absurd rfl hne
  · exact ⟨ht, hs⟩
  · exact ⟨hs, ht⟩
  · exact absurd rfl hne

section Unique

variable (hcanonical : ∀ x ∈ xs, x.IsCanonical) (hx : x ∈ xs) (hy : y ∈ xs)
include hcanonical hx hy

theorem eq_of_least (hzeros : ¬(MixesZeros xs ∧ ∀ z ∈ xs, zero false ≤ z))
    (hleast : ∀ z ∈ xs, x ≤ z) (hleast' : ∀ z ∈ xs, y ≤ z) : x = y := by
  refine Binary64.eq_of_same (hcanonical x hx) (hcanonical y hy)
    (Binary64.same_of_le_of_le (hleast y hy) (hleast' x hx)) fun s t hs ht => by_contra fun hne => ?_
  exact hzeros ⟨mixesZeros_of_ne hne (hs ▸ hx) (ht ▸ hy),
    fun z hz => Binary64.zero_le_iff.mp (hs ▸ hleast z hz)⟩

theorem eq_of_greatest (hzeros : ¬(MixesZeros xs ∧ ∀ z ∈ xs, z ≤ zero false))
    (hgreatest : ∀ z ∈ xs, z ≤ x) (hgreatest' : ∀ z ∈ xs, z ≤ y) : x = y := by
  refine Binary64.eq_of_same (hcanonical x hx) (hcanonical y hy)
    (Binary64.same_of_le_of_le (hgreatest' x hx) (hgreatest y hy)) fun s t hs ht =>
      by_contra fun hne => ?_
  exact hzeros ⟨mixesZeros_of_ne hne (hs ▸ hx) (ht ▸ hy),
    fun z hz => Binary64.le_zero_iff.mp (hs ▸ hgreatest z hz)⟩

end Unique

/-- Fixed extremes are the same in every order. -/
theorem ofExtremes_perm {α : Type} (make : Binary64 → Binary64 → α)
    (hcanonical : ∀ x ∈ xs, x.IsCanonical) (hfixed : HasFixedExtremes xs) (hperm : ys.Perm xs) :
    ofExtremes make ys = ofExtremes make xs := by
  cases xs with
  | nil => rw [hperm.eq_nil]
  | cons x xs =>
      cases ys with
      | nil => exact absurd hperm.symm.eq_nil (List.cons_ne_nil _ _)
      | cons y ys =>
          have hy : y ∈ x :: xs := hperm.mem_iff.mp List.mem_cons_self
          rcases hfixed with hnan | ⟨hnan, hzeros⟩
          · rw [hnan x List.mem_cons_self, hnan y hy, ofExtremes_nan_cons, ofExtremes_nan_cons]
          · have hpoint {z : Binary64} (hz : z ∈ x :: xs) : z ≠ .nan := fun h => hnan (h ▸ hz)
            rw [and_or_left, not_or] at hzeros
            -- Each extreme of one order is on the right side of that of the other, and the other
            -- way round, so that the two are one point.
            obtain ⟨least, hleast, greatest, hgreatest, hmake, hbetween⟩ :=
              exists_extremes make (hpoint List.mem_cons_self) xs
            obtain ⟨least', hleast', greatest', hgreatest', hmake', hbetween'⟩ :=
              exists_extremes make (hpoint hy) ys
            simp only [hperm.mem_iff] at hleast' hgreatest' hbetween'
            have hsameLeast : least' = least := eq_of_least hcanonical hleast' hleast hzeros.1
              (fun z hz => (hbetween' z hz (hpoint hz)).1) fun z hz => (hbetween z hz (hpoint hz)).1
            have hsameGreatest : greatest' = greatest :=
              eq_of_greatest hcanonical hgreatest' hgreatest hzeros.2
                (fun z hz => (hbetween' z hz (hpoint hz)).2) fun z hz => (hbetween z hz (hpoint hz)).2
            rw [hmake, hmake', hsameLeast, hsameGreatest]

/-! ## Altitudes whose order matters

What is shown are texts, so that it has to be seen in the text which number was kept. -/

theorem shortText_eq_of_verticalElement_eq {least' greatest' : Binary64}
    (h : verticalElement least greatest = verticalElement least' greatest') :
    shortText least = shortText least' ∧ shortText greatest = shortText greatest' := by
  simpa [verticalElement, holder, textElement, decimalText, String.ofList_inj] using h

theorem shortText_zero_ne : shortText (zero true) ≠ shortText (zero false) := by decide

/-- NaN that comes first shows in the element, and it does not if another number comes first. -/
theorem ofExtremes_nan_ne (hx : x ≠ .nan) (xs ys : List Binary64) :
    ofExtremes verticalElement (.nan :: ys) ≠ ofExtremes verticalElement (x :: xs) := by
  intro hsame
  obtain ⟨least, -, greatest, -, hmake, hbetween⟩ := exists_extremes verticalElement hx xs
  rw [ofExtremes_nan_cons, hmake] at hsame
  have htext := (shortText_eq_of_verticalElement_eq (List.head_eq_of_cons_eq hsame)).1
  obtain ⟨hleast, -⟩ := Binary64.le_iff.mp (hbetween x List.mem_cons_self hx).1
  exact hleast (Number.shortText_eq_nan_iff.mp htext.symm)

/-- A zero that comes first is not replaced by the other, and the element shows its sign. -/
theorem ofExtremes_zeros_ne
    (h : (∀ x ∈ xs ++ ys, zero false ≤ x) ∨ ∀ x ∈ xs ++ ys, x ≤ zero false) :
    ofExtremes verticalElement (zero true :: xs) ≠ ofExtremes verticalElement (zero false :: ys) := by
  simp only [List.forall_mem_append] at h
  intro hsame
  -- The zeros are at one end of the altitudes, and the element shows that end.
  rcases h with ⟨hxs, hys⟩ | ⟨hxs, hys⟩
  · have hfirst {s : Bool} {zs : List Binary64} (hzs : ∀ z ∈ zs, zero false ≤ z) :
        ∃ greatest,
          ofExtremes verticalElement (zero s :: zs) = [verticalElement (zero s) greatest] := by
      have hleast : least? (zero s :: zs) = some (zero s) :=
        Binary64.least?_eq_head fun z hz =>
          Binary64.not_lt_of_le (Binary64.zero_le_iff.mp (hzs z hz))
      exact ⟨_, by rw [ofExtremes, hleast]; rfl⟩
    obtain ⟨greatest, hmake⟩ := hfirst hxs
    obtain ⟨greatest', hmake'⟩ := hfirst hys
    rw [hmake, hmake'] at hsame
    exact shortText_zero_ne (shortText_eq_of_verticalElement_eq (List.head_eq_of_cons_eq hsame)).1
  · have hfirst {s : Bool} {zs : List Binary64} (hzs : ∀ z ∈ zs, z ≤ zero false) :
        ∃ least, ofExtremes verticalElement (zero s :: zs) = [verticalElement least (zero s)] := by
      have hgreatest : greatest? (zero s :: zs) = some (zero s) :=
        Binary64.greatest?_eq_head fun z hz =>
          Binary64.not_lt_of_le (Binary64.le_zero_iff.mp (hzs z hz))
      exact ⟨_, by rw [ofExtremes, hgreatest]; rfl⟩
    obtain ⟨least, hmake⟩ := hfirst hxs
    obtain ⟨least', hmake'⟩ := hfirst hys
    rw [hmake, hmake'] at hsame
    exact shortText_zero_ne (shortText_eq_of_verticalElement_eq (List.head_eq_of_cons_eq hsame)).2

/-- If the vertical elements are the same whichever altitude comes first, then the extremes are the
same numbers in every order. -/
theorem hasFixedExtremes_of_forall {nodes : List Node}
    (h : ∀ x ∈ xs, ∃ rest, (x :: rest).Perm xs ∧ ofExtremes verticalElement (x :: rest) = nodes) :
    HasFixedExtremes xs := by
  by_cases hall : ∀ x ∈ xs, x = .nan
  · exact .inl hall
  · refine .inr ⟨fun hnan => ?_, ?_⟩
    · obtain ⟨x, hx, hpoint⟩ : ∃ x ∈ xs, x ≠ .nan := by simpa using hall
      obtain ⟨rest, -, hnodes⟩ := h x hx
      obtain ⟨others, -, hothers⟩ := h .nan hnan
      exact ofExtremes_nan_ne hpoint rest others (hothers.trans hnodes.symm)
    · -- One order with each of the zeros first, and the two show different signs.
      rintro ⟨⟨htrue, hfalse⟩, hextreme⟩
      obtain ⟨rest, hrest, hnodes⟩ := h _ htrue
      obtain ⟨others, hothers, hnodes'⟩ := h _ hfalse
      have hsub : rest ++ others ⊆ xs := List.append_subset.mpr
        ⟨List.subset_of_cons_subset hrest.subset, List.subset_of_cons_subset hothers.subset⟩
      refine ofExtremes_zeros_ne ?_ (hnodes.trans hnodes'.symm)
      exact hextreme.imp (fun hle x hx => hle x (hsub hx)) fun hle x hx => hle x (hsub hx)

/-! ## The document -/

/-- Altitudes of canonical numbers are canonical, and those of integers always are. -/
theorem isCanonical_of_mem_altitudes
    (hcanonical : ∀ x, .float x ∈ record.values Attribute.altitude → x.IsCanonical) :
    ∀ x ∈ altitudes record, x.IsCanonical := by
  intro x hx
  obtain ⟨value, hvalue, hnumber⟩ := List.mem_filterMap.mp hx
  cases value with
  | float number =>
      obtain rfl : number = x := by simpa [Value.number?] using hnumber
      exact hcanonical number hvalue
  | int n =>
      rw [Value.number?] at hnumber
      cases hofInt : Binary64.ofInt? n with
      | none =>
          rw [hofInt] at hnumber
          cases hnumber
      | some number =>
          rw [hofInt] at hnumber
          obtain rfl : number = x := Option.some.inj hnumber
          exact Binary64.isCanonical_of_ofInt? hofInt
  | _ => cases hnumber

/-- The vertical extent of a document is the least and the greatest altitude, as they are found from
the left.  With the altitudes in another order the record can still be converted, and the extent is
the same whatever the order exactly if NaN is not mixed with other numbers and neither extreme is a
choice between the two zeros.  The altitudes are in canonical form, as all numbers are that rounding
gives. -/
theorem vertical_extent_ignores_order_iff (hok : assignments source = .ok tracker)
    (hcanonical : ∀ x, .float x ∈ source.record.values Attribute.altitude → x.IsCanonical) :
    ∃ document, Converter.assemble tracker = .ok document ∧
      ShowsExtent (altitudes source.record) (verticalElements document) ∧
      (∀ values, values.Perm (allValues source.record Attribute.altitude) →
        Succeeds (assignments (source.setting Attribute.altitude values))) ∧
      ((∀ values other otherDocument, values.Perm (allValues source.record Attribute.altitude) →
          assignments (source.setting Attribute.altitude values) = .ok other →
          Converter.assemble other = .ok otherDocument →
          verticalElements otherDocument = verticalElements document) ↔
        HasFixedExtremes (altitudes source.record)) := by
  obtain ⟨document, hassemble, helements⟩ := exists_verticalElements hok
  refine ⟨document, hassemble, helements ▸ showsExtent_ofExtremes _,
    fun values => succeeds_assignments_setting hok, fun hsame => ?_, fun hfixed => ?_⟩
  · -- It is enough to look at one order for each altitude that may come first.
    refine @hasFixedExtremes_of_forall _ (verticalElements document) fun x hx => ?_
    obtain ⟨values, hperm, hhead⟩ := exists_head?_altitudes_set hx
    obtain ⟨rest, hrest⟩ := List.head?_eq_some_iff.mp hhead
    obtain ⟨other, hother⟩ := succeeds_assignments_setting hok hperm
    obtain ⟨otherDocument, hotherAssemble, hotherElements⟩ := exists_verticalElements hother
    refine ⟨rest, hrest ▸ perm_altitudes_set hperm, ?_⟩
    rw [← hsame values other otherDocument hperm hother hotherAssemble, hotherElements]
    exact congrArg _ hrest.symm
  · intro values other otherDocument hperm hother hotherAssemble
    obtain ⟨found, hfound, hfoundElements⟩ := exists_verticalElements hother
    obtain rfl := Except.ok.inj (hfound.symm.trans hotherAssemble)
    rw [hfoundElements, helements]
    exact ofExtremes_perm verticalElement (isCanonical_of_mem_altitudes hcanonical) hfixed
      (perm_altitudes_set hperm)

/-- The floating-point number 1. -/
def oneFloat : Binary64 := .finite false 4503599627370496 (-52)

/-- Altitudes of all kinds: an integer, a text, a floating-point number, a null and the end of the
line. -/
def altitudeValues : List Value := [.int 5, .text "x", .float oneFloat, .null, .float (.infinite true)]

/-- The source of a record that has altitudes and nothing else. -/
def altitudeSource (values : List Value) : Source := sourceOf [(Attribute.altitude, values)]

theorem reversed_altitudes_have_same_extent :
    ∃ tracker document other otherDocument,
      assignments (altitudeSource altitudeValues) = .ok tracker ∧
      Converter.assemble tracker = .ok document ∧
      assignments ((altitudeSource altitudeValues).setting Attribute.altitude
        altitudeValues.reverse) = .ok other ∧
      Converter.assemble other = .ok otherDocument ∧
      (∃ least greatest, verticalElements document = [verticalElement least greatest]) ∧
      verticalElements otherDocument = verticalElements document := by
  have hvalues : allValues (altitudeSource altitudeValues).record Attribute.altitude =
      altitudeValues := rfl
  have hnumbers : altitudes (altitudeSource altitudeValues).record =
      [.finite false 5629499534213120 (-50), oneFloat, .infinite true] := by decide +kernel
  obtain ⟨tracker, hok⟩ : Succeeds (assignments (altitudeSource altitudeValues)) :=
    succeeds_of_faultOf? (by decide +kernel)
  have hcanonical : ∀ x, .float x ∈ (altitudeSource altitudeValues).record.values
      Attribute.altitude → x.IsCanonical := by
    intro x hx
    have hmem : Value.float x ∈ altitudeValues := hvalues ▸ List.mem_of_mem_filter hx
    rcases (by simpa [altitudeValues] using hmem : x = oneFloat ∨ x = .infinite true) with rfl | rfl
    · decide
    · trivial
  obtain ⟨document, hassemble, hshows, hsucceeds, hsame⟩ :=
    vertical_extent_ignores_order_iff hok hcanonical
  have hperm := altitudeValues.reverse_perm
  rw [← hvalues] at hperm
  obtain ⟨other, hother⟩ := hsucceeds _ hperm
  obtain ⟨otherDocument, hotherAssemble, -⟩ := exists_verticalElements hother
  rw [hnumbers] at hshows hsame
  obtain ⟨least, -, greatest, -, helements, -⟩ := hshows.between _ rfl (by decide)
  refine ⟨tracker, document, other, otherDocument, hok, hassemble, hvalues ▸ hother, hotherAssemble,
    ⟨least, greatest, helements⟩, hsame.mpr ?_ _ _ _ hperm hother hotherAssemble⟩
  exact .inr ⟨by decide, fun h => absurd h.1.1 (by decide)⟩

/-- The document of the source has one vertical element, with these extremes. -/
def HasExtent (source : Source) (least greatest : Binary64) : Prop :=
  ∃ tracker document, assignments source = .ok tracker ∧ Converter.assemble tracker = .ok document ∧
    verticalElements document = [verticalElement least greatest]

theorem hasExtent_of_ofExtremes (hok : Succeeds (assignments source))
    (h : ofExtremes verticalElement (altitudes source.record) = [verticalElement least greatest]) :
    HasExtent source least greatest := by
  obtain ⟨tracker, hok⟩ := hok
  obtain ⟨document, hassemble, helements⟩ := exists_verticalElements hok
  exact ⟨tracker, document, hok, hassemble, helements.trans h⟩

/-- NaN that comes first hides the other altitudes, and of the two zeros the first is written. -/
theorem order_of_altitudes_changes_extent :
    (HasExtent (altitudeSource [.float .nan, .float oneFloat]) .nan .nan ∧
      HasExtent (altitudeSource [.float oneFloat, .float .nan]) oneFloat oneFloat ∧
      verticalElement .nan .nan ≠ verticalElement oneFloat oneFloat) ∧
    (HasExtent (altitudeSource [.float (zero false), .float (zero true)]) (zero false) (zero false) ∧
      HasExtent (altitudeSource [.float (zero true), .float (zero false)]) (zero true) (zero true) ∧
      verticalElement (zero false) (zero false) ≠ verticalElement (zero true) (zero true)) := by
  have hone : shortText oneFloat ≠ "nan".toList :=
    Number.shortText_eq_nan_iff.not.mpr (by decide)
  refine ⟨⟨?_, ?_, fun h => hone (shortText_eq_of_verticalElement_eq h).1.symm⟩, ?_, ?_,
    fun h => shortText_zero_ne (shortText_eq_of_verticalElement_eq h).1.symm⟩ <;>
  · exact hasExtent_of_ofExtremes (succeeds_of_faultOf? (by decide +kernel)) rfl

end GeoMetadata.Profile
