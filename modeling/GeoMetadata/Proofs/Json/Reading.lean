import GeoMetadata.Json.Reading
import GeoMetadata.Proofs.Number.IntegerText
import Mathlib.Data.List.TakeDrop

/-!
# Where reading JSON stops

Reading leaves an end of the text, so every part that is read stands in the text.  The reader stops
at an integer only where the text has a numeral of more digits than an integer may have; all else
that it stops at is a complaint about the form of the text (`isReadOf_nested`, by induction on the
depth of nesting).

The same bound on what is left shows that fuel is no matter: a level of nesting and a further item
leave less of the text behind than there was, so that two steps for each character are never used up
(`nested_succ_eq`), and a text is read as with any greater fuel (`value_eq_of_fuelFor_le`).
-/

namespace GeoMetadata.Json

open Number Text

/-- The text has more ASCII digits in a row than an integer may have. -/
def HasLongNumeral (text : List Char) : Prop :=
  ∃ digits, digits <:+: text ∧ (∀ c ∈ digits, isAsciiDigit c = true) ∧ digitLimit < digits.length

theorem HasLongNumeral.of_infix {part text : List Char} (h : HasLongNumeral part)
    (hpart : part <:+: text) : HasLongNumeral text := by
  obtain ⟨digits, hdigits, hall, hlong⟩ := h
  exact ⟨digits, hdigits.trans hpart, hall, hlong⟩

/-- What is left is an end of the text, and reading it stops at an integer only if it has a long
numeral. -/
def IsReadOf {α : Type} (text : List Char) : Read α → Prop
  | .ok (_, rest) => rest <:+ text
  | .error (.complaint ..) => True
  | .error (.integer _) => HasLongNumeral text

section Reads

variable {α β : Type} {inner text : List Char}

theorem IsReadOf.of_suffix {result : Read α} (h : IsReadOf inner result) (hinner : inner <:+ text) :
    IsReadOf text result := by
  rcases result with (⟨what, left⟩ | fault) | ⟨a, rest⟩
  · trivial
  · exact HasLongNumeral.of_infix h hinner.isInfix
  · exact List.IsSuffix.trans h hinner

theorem IsReadOf.error {stop : Stop} (h : IsReadOf text (.error stop : Read α)) :
    IsReadOf text (.error stop : Read β) := by
  cases stop <;> exact h

theorem IsReadOf.map {result : Read α} (h : IsReadOf text result) (f : α → List Char → β) :
    IsReadOf text (result.map fun read => (f read.1 read.2, read.2)) := by
  rcases result with (⟨what, left⟩ | fault) | ⟨a, rest⟩
  · trivial
  · exact h
  · exact h

end Reads

theorem suffix_skipSpace (text : List Char) : skipSpace text <:+ text := List.dropWhile_suffix _

/-! ## Strings -/

theorem exists_complaint_of_unicodeEscape {rest : List Char} {stop : Stop}
    (h : unicodeEscape rest = .error stop) : ∃ what left, stop = .complaint what left := by
  grind [unicodeEscape]

theorem isReadOf_stringFrom (start : Nat) (done : List Char) (skip : Nat) (text : List Char) :
    IsReadOf text (stringFrom start done skip text) := by
  fun_induction stringFrom start done skip text with
  | case1 => trivial
  | case2 done skip c rest ih => exact ih.of_suffix (List.suffix_cons _ _)
  | case3 done rest => exact List.suffix_cons _ _
  | case4 => trivial
  | case5 done code stop hstop =>
      obtain ⟨what, left, rfl⟩ := exists_complaint_of_unicodeEscape hstop
      trivial
  | case6 done code character length hescape hquote ih => exact ih.of_suffix (List.suffix_cons _ _)
  | case7 done letter rest hletter character hescape hquote ih =>
      exact ih.of_suffix (List.suffix_cons _ _)
  | case8 => trivial
  | case9 => trivial
  | case10 done c rest hquote hescape hcontrol ih => exact ih.of_suffix (List.suffix_cons _ _)

theorem isReadOf_string (text : List Char) : IsReadOf text (string text) :=
  isReadOf_stringFrom _ _ _ _

/-! ## Numbers -/

theorem isDigit_of_isAsciiDigit {c : Char} (h : isAsciiDigit c = true) : c.isDigit = true := h

theorem suffix_span (p : Char → Bool) (text : List Char) : (text.span p).2 <:+ text := by
  rw [List.span_eq_takeWhile_dropWhile]
  exact List.dropWhile_suffix p

theorem prefix_spanWhole (text : List Char) : (spanWhole text).1 <+: text := by
  unfold spanWhole
  split
  · exact List.prefix_append ['0'] _
  · rw [List.span_eq_takeWhile_dropWhile]
    exact List.takeWhile_prefix _

theorem suffix_spanWhole (text : List Char) : (spanWhole text).2 <:+ text := by
  unfold spanWhole
  split
  · exact List.suffix_cons _ _
  · exact suffix_span _ _

theorem isAsciiDigit_of_mem_spanWhole {text : List Char} {c : Char} (hc : c ∈ (spanWhole text).1) :
    isAsciiDigit c = true := by
  unfold spanWhole at hc
  split at hc
  · rw [List.mem_singleton.mp hc]
    rfl
  · rw [List.span_eq_takeWhile_dropWhile] at hc
    exact List.mem_takeWhile_imp hc

theorem suffix_spanFraction (text : List Char) : (spanFraction text).2 <:+ text := by
  unfold spanFraction
  split
  · rename_i rest
    have hspan := suffix_span isAsciiDigit rest
    split
    · exact List.suffix_rfl
    · rename_i digits after hdigits
      rw [hdigits] at hspan
      exact hspan.trans (List.suffix_cons _ _)
  · exact List.suffix_rfl

theorem suffix_spanExponent (text : List Char) : (spanExponent text).2 <:+ text := by
  fun_cases spanExponent text with
  | case1 => exact List.suffix_rfl
  | case2 letter rest hletter sign unsigned hsign digits after hdigits hspan =>
      have hspanned := suffix_span isAsciiDigit unsigned
      rw [hspan] at hspanned
      have hunsigned : unsigned <:+ rest := by
        split at hsign <;> cases hsign
        · exact List.suffix_cons _ _
        · exact List.suffix_cons _ _
        · exact List.suffix_rfl
      exact hspanned.trans (hunsigned.trans (List.suffix_cons _ _))
  | case3 => exact List.suffix_rfl
  | case4 => exact List.suffix_rfl

/-- A text of ASCII digits is a numeral, unless it is too long. -/
theorem digitLimit_lt_of_readNatural {digits : List Char}
    (hdigits : ∀ c ∈ digits, isAsciiDigit c = true) {fault : IntegerFault}
    (h : readNatural (String.ofList digits) = .error fault) : digitLimit < digits.length := by
  have hread := readDigits?_eq_some fun c hc => isDigit_of_isAsciiDigit (hdigits c hc)
  unfold readNatural at h
  rw [String.toList_ofList] at h
  dsimp only at h
  split at h
  · rename_i hlong
    exact hlong.trans_le (List.takeWhile_prefix _).length_le
  · rw [hread] at h
    cases h

theorem isReadOf_number (text : List Char) : IsReadOf text (number text) := by
  have hrest {unsigned whole afterWhole fraction afterFraction exponent rest : List Char}
      (hwhole : spanWhole unsigned = (whole, afterWhole))
      (hfraction : spanFraction afterWhole = (fraction, afterFraction))
      (hexponent : spanExponent afterFraction = (exponent, rest)) : rest <:+ unsigned := by
    have hfirst := suffix_spanWhole unsigned
    have hsecond := suffix_spanFraction afterWhole
    have hthird := suffix_spanExponent afterFraction
    rw [hwhole] at hfirst
    rw [hfraction] at hsecond
    rw [hexponent] at hthird
    exact hthird.trans (hsecond.trans hfirst)
  fun_cases number text with
  | case1 => trivial
  | case2 negative unsigned hsign whole afterWhole hwhole fraction afterFraction hfraction exponent
      rest hexponent hsome hnone n hn =>
      have hunsigned : unsigned <:+ text := by
        split at hsign <;> cases hsign
        · exact List.suffix_cons _ _
        · exact List.suffix_rfl
      exact (hrest hwhole hfraction hexponent).trans hunsigned
  | case3 negative unsigned hsign whole afterWhole hwhole fraction afterFraction hfraction exponent
      rest hexponent hsome hnone fault hfault =>
      have hunsigned : unsigned <:+ text := by
        split at hsign <;> cases hsign
        · exact List.suffix_cons _ _
        · exact List.suffix_rfl
      have hdigits : ∀ c ∈ (spanWhole unsigned).1, isAsciiDigit c = true := fun _ =>
        isAsciiDigit_of_mem_spanWhole
      rw [hwhole] at hdigits
      have hprefix := prefix_spanWhole unsigned
      rw [hwhole] at hprefix
      exact ⟨whole, hprefix.isInfix.trans hunsigned.isInfix, hdigits,
        digitLimit_lt_of_readNatural hdigits hfault⟩
  | case4 negative unsigned hsign whole afterWhole hwhole fraction afterFraction hfraction exponent
      rest hexponent hsome hnone x hx =>
      have hunsigned : unsigned <:+ text := by
        split at hsign <;> cases hsign
        · exact List.suffix_cons _ _
        · exact List.suffix_rfl
      exact (hrest hwhole hfraction hexponent).trans hunsigned
  | case5 => trivial

/-! ## Values -/

theorem isReadOf_wordOrNumber (text : List Char) : IsReadOf text (wordOrNumber text) := by
  unfold wordOrNumber
  split
  · exact List.drop_suffix _ _
  · exact isReadOf_number text

theorem suffix_skipSpace_cons (c : Char) (rest : List Char) : skipSpace rest <:+ c :: rest :=
  (suffix_skipSpace rest).trans (List.suffix_cons c rest)

section Nesting

variable {fuel : Nat} (hvalue : ∀ text, IsReadOf text (value fuel text))
  (hmembers : ∀ text done, IsReadOf text (members fuel text done))
  (helements : ∀ text done, IsReadOf text (elements fuel text done))

include hmembers helements in
theorem isReadOf_value_succ (text : List Char) : IsReadOf text (value (fuel + 1) text) := by
  unfold value
  split
  · exact ((isReadOf_string _).map fun s _ => Value.text s).of_suffix (List.suffix_cons _ _)
  · rename_i rest
    have hinner := suffix_skipSpace_cons '\x7b' rest
    split
    · rename_i after hempty
      exact (List.suffix_cons _ _).trans (hempty ▸ hinner)
    · exact ((hmembers _ _).map fun entries _ => Value.map entries).of_suffix hinner
  · rename_i rest
    have hinner := suffix_skipSpace_cons '[' rest
    split
    · rename_i after hempty
      exact (List.suffix_cons _ _).trans (hempty ▸ hinner)
    · exact ((helements _ _).map fun items _ => Value.list items).of_suffix hinner
  · exact isReadOf_wordOrNumber text

include hvalue hmembers in
theorem isReadOf_members_succ (text : List Char) (done : List (Value × Value)) :
    IsReadOf text (members (fuel + 1) text done) := by
  unfold members
  split
  · rename_i rest
    have hname := (isReadOf_string rest).of_suffix (List.suffix_cons '"' rest)
    split
    · rename_i stop hstop
      rw [hstop] at hname
      exact hname.error
    · rename_i name afterName hok
      rw [hok] at hname
      have hcolon := (suffix_skipSpace afterName).trans hname
      split
      · rename_i afterColon hcolon'
        have hstart := (suffix_skipSpace_cons ':' afterColon).trans (hcolon' ▸ hcolon)
        have hmember := (hvalue (skipSpace afterColon)).of_suffix hstart
        split
        · rename_i stop hstop
          rw [hstop] at hmember
          exact hmember.error
        · rename_i member afterValue hok'
          rw [hok'] at hmember
          have hnext := (suffix_skipSpace afterValue).trans hmember
          dsimp only
          split
          · rename_i after hclose
            exact (List.suffix_cons _ _).trans (hclose ▸ hnext)
          · rename_i after hcomma
            refine (hmembers _ _).of_suffix ?_
            exact (suffix_skipSpace_cons _ after).trans (hcomma ▸ hnext)
          · trivial
      · trivial
  · trivial

include hvalue helements in
theorem isReadOf_elements_succ (text : List Char) (done : List Value) :
    IsReadOf text (elements (fuel + 1) text done) := by
  have helement := hvalue text
  unfold elements
  split
  · rename_i stop hstop
    rw [hstop] at helement
    exact helement.error
  · rename_i element afterValue hok
    rw [hok] at helement
    have hnext := (suffix_skipSpace afterValue).trans helement
    split
    · rename_i after hclose
      exact (List.suffix_cons _ _).trans (hclose ▸ hnext)
    · rename_i after hcomma
      refine (helements _ _).of_suffix ?_
      exact (suffix_skipSpace_cons _ after).trans (hcomma ▸ hnext)
    · trivial

end Nesting

/-- Values, members and elements are read within the text, at every depth of nesting. -/
theorem isReadOf_nested (fuel : Nat) :
    (∀ text, IsReadOf text (value fuel text)) ∧
    (∀ text done, IsReadOf text (members fuel text done)) ∧
    ∀ text done, IsReadOf text (elements fuel text done) := by
  induction fuel with
  | zero => exact ⟨fun _ => trivial, fun _ _ => trivial, fun _ _ => trivial⟩
  | succ fuel ih =>
      obtain ⟨hvalue, hmembers, helements⟩ := ih
      exact ⟨isReadOf_value_succ hmembers helements, isReadOf_members_succ hvalue hmembers,
        isReadOf_elements_succ hvalue helements⟩

/-! ## Fuel -/

section Fuel

variable {fuel : Nat} {text : List Char}

theorem length_skipSpace_le (text : List Char) : (skipSpace text).length ≤ text.length :=
  (suffix_skipSpace text).length_le

theorem length_le_of_value {found : Value} {after : List Char}
    (h : value fuel text = .ok (found, after)) : after.length ≤ text.length := by
  have hread := (isReadOf_nested fuel).1 text
  rw [h] at hread
  exact List.IsSuffix.length_le hread

theorem value_succ_eq
    (hmembers : ∀ inner done, inner.length < text.length →
      members (fuel + 1) inner done = members fuel inner done)
    (helements : ∀ inner done, inner.length < text.length →
      elements (fuel + 1) inner done = elements fuel inner done) :
    value (fuel + 2) text = value (fuel + 1) text := by
  unfold value
  split
  · rfl
  · rename_i rest
    have hinner : (skipSpace rest).length < ('\x7b' :: rest).length :=
      Nat.lt_succ_of_le (length_skipSpace_le rest)
    dsimp only
    split
    · rfl
    · rw [hmembers _ _ hinner]
  · rename_i rest
    have hinner : (skipSpace rest).length < ('[' :: rest).length :=
      Nat.lt_succ_of_le (length_skipSpace_le rest)
    dsimp only
    split
    · rfl
    · rw [helements _ _ hinner]
  · rfl

theorem elements_succ_eq {done : List Value}
    (hvalue : value (fuel + 1) text = value fuel text)
    (helements : ∀ inner done, inner.length < text.length →
      elements (fuel + 1) inner done = elements fuel inner done) :
    elements (fuel + 2) text done = elements (fuel + 1) text done := by
  unfold elements
  rw [hvalue]
  cases hread : value fuel text with
  | error stop => rfl
  | ok read =>
      obtain ⟨element, afterValue⟩ := read
      have hafter := (length_skipSpace_le afterValue).trans (length_le_of_value hread)
      dsimp only
      split
      · rfl
      · rename_i after hcomma
        have hshorter : (skipSpace after).length < text.length := by
          rw [hcomma, List.length_cons] at hafter
          exact (length_skipSpace_le after).trans_lt hafter
        rw [helements _ _ hshorter]
      · rfl

theorem members_succ_eq {done : List (Value × Value)}
    (hvalue : ∀ inner, inner.length < text.length → value (fuel + 1) inner = value fuel inner)
    (hmembers : ∀ inner done, inner.length < text.length →
      members (fuel + 1) inner done = members fuel inner done) :
    members (fuel + 2) text done = members (fuel + 1) text done := by
  unfold members
  split
  · rename_i rest
    dsimp only
    have hname := isReadOf_string rest
    cases hstring : string rest with
    | error stop => rfl
    | ok read =>
        obtain ⟨name, afterName⟩ := read
        rw [hstring] at hname
        have hcolon := (length_skipSpace_le afterName).trans (List.IsSuffix.length_le hname)
        dsimp only
        split
        · rename_i afterColon hafterColon
          have hstart : (skipSpace afterColon).length < ('"' :: rest).length := by
            have hle := length_skipSpace_le afterColon
            rw [hafterColon] at hcolon
            simp only [List.length_cons] at hcolon ⊢
            omega
          rw [hvalue _ hstart]
          cases hread : value fuel (skipSpace afterColon) with
          | error stop => rfl
          | ok read =>
              obtain ⟨member, afterValue⟩ := read
              have hafter := (length_skipSpace_le afterValue).trans (length_le_of_value hread)
              dsimp only
              split
              · rfl
              · rename_i after hcomma
                have hshorter : (skipSpace after).length < ('"' :: rest).length := by
                  have hle := length_skipSpace_le after
                  rw [hcomma, List.length_cons] at hafter
                  omega
                rw [hmembers _ _ hshorter]
              · rfl
        · rfl
  · rfl

/-- Two steps for each character, and one more, are never used up. -/
theorem nested_succ_eq (fuel : Nat) :
    (∀ text, 2 * text.length < fuel → value (fuel + 1) text = value fuel text) ∧
    (∀ text done, 2 * text.length + 1 < fuel →
      members (fuel + 1) text done = members fuel text done) ∧
    ∀ text done, 2 * text.length + 1 < fuel →
      elements (fuel + 1) text done = elements fuel text done := by
  induction fuel with
  | zero => exact ⟨nofun, nofun, nofun⟩
  | succ fuel ih =>
      obtain ⟨hvalue, hmembers, helements⟩ := ih
      refine ⟨fun text hfuel => ?_, fun text done hfuel => ?_, fun text done hfuel => ?_⟩
      · exact value_succ_eq (fun inner done hinner => hmembers inner done (by omega))
          fun inner done hinner => helements inner done (by omega)
      · exact members_succ_eq (fun inner hinner => hvalue inner (by omega))
          fun inner done hinner => hmembers inner done (by omega)
      · exact elements_succ_eq (hvalue text (by omega))
          fun inner done hinner => helements inner done (by omega)

/-- Fuel beyond that of a text is inert: reading never stops for want of it. -/
theorem value_eq_of_fuelFor_le (hfuel : fuelFor text ≤ fuel) :
    value fuel (skipSpace text) = value (fuelFor text) (skipSpace text) := by
  induction fuel, hfuel using Nat.le_induction with
  | base => rfl
  | succ fuel hle ih =>
      have hlength := length_skipSpace_le text
      have henough : 2 * (skipSpace text).length < fuel := by
        unfold fuelFor at hle
        omega
      rw [(nested_succ_eq fuel).1 _ henough, ih]

end Fuel

/-! ## Texts -/

/-- Reading a text stops at an integer only if the text has a long numeral. -/
theorem hasLongNumeral_of_read {text : List Char} {fault : IntegerFault}
    (h : read text = .error (.integer fault)) : HasLongNumeral text := by
  have hvalue := ((isReadOf_nested (fuelFor text)).1 (skipSpace text)).of_suffix
    (suffix_skipSpace text)
  unfold read document at h
  split at h
  · cases h
  · split at h
    · rename_i stop hstop
      rw [hstop] at hvalue
      cases stop with
      | complaint => cases h
      | integer => exact hvalue
    · split at h <;> cases h

end GeoMetadata.Json
