/-!
# Finding and replacing within a text

The three operations work on characters and scan from the left: `contains` asks whether a
text occurs, `replaceAll` replaces its leftmost occurrences that do not overlap, and
`splitAt` cuts a text at every occurrence of one character.
-/

namespace GeoMetadata.Text

/-- `part` occurs in the text. -/
def contains (part : List Char) : List Char → Bool
  | [] => part.isEmpty
  | c :: rest => part.isPrefixOf (c :: rest) || contains part rest

/-- Replaces the leftmost occurrences of `part` that do not overlap. The counter `skip` is
the number of characters of the present occurrence still to be passed over. -/
def replaceFrom (part new : List Char) : Nat → List Char → List Char
  | _, [] => []
  | skip + 1, _ :: rest => replaceFrom part new skip rest
  | 0, c :: rest =>
    if part ≠ [] ∧ part.isPrefixOf (c :: rest) then
      new ++ replaceFrom part new (part.length - 1) rest
    else c :: replaceFrom part new 0 rest

/-- The text with every occurrence of `part` replaced, from the left and without overlap. -/
def replaceAll (part new : List Char) (text : List Char) : List Char :=
  replaceFrom part new 0 text

/-- The pieces of a text between the occurrences of a separator. There is always at least
one piece. -/
def splitAt (separator : Char) : List Char → List (List Char)
  | [] => [[]]
  | c :: rest =>
    if c = separator then [] :: splitAt separator rest
    else match splitAt separator rest with
      | [] => [[c]]
      | piece :: pieces => (c :: piece) :: pieces

/-- The text before the first occurrence of the separator, and the text after it if there
is one. -/
def cutAt (separator : Char) : List Char → List Char × Option (List Char)
  | [] => ([], none)
  | c :: rest =>
    if c = separator then ([], some rest)
    else ((cutAt separator rest).1.cons c, (cutAt separator rest).2)

theorem splitAt_ne_nil (separator : Char) (text : List Char) : splitAt separator text ≠ [] := by
  cases text with
  | nil => simp [splitAt]
  | cons c rest =>
    unfold splitAt
    split
    · simp
    · split <;> simp

end GeoMetadata.Text
