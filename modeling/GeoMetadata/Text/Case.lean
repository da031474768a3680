import GeoMetadata.Text.CaseTable
import GeoMetadata.Text.Range

/-!
# Lower case and case folding

`lower` is the full lower-case mapping: one character at a time, but for the capital I with
a dot above, which becomes two characters, and for a capital sigma, which takes its final
form at the end of a word.

`foldEq` compares a text with a plain ASCII word while ignoring case.  Few characters outside
ASCII fold to ASCII letters, so a short list of them is enough.
-/

namespace GeoMetadata.Text

/-- The image of a code point in a run that holds it. -/
def CaseRun.image? (run : CaseRun) (n : Nat) : Option Nat :=
  if run.first ≤ n ∧ n ≤ run.last ∧ (n - run.first) % run.stride = 0 then
    some (run.image + (n - run.first))
  else none

/-- The lower-case form of a character that does not depend on its neighbours. -/
def lowerChar (c : Char) : List Char :=
  if c.toNat < 0x80 then [c.toLower]
  else if c.toNat = 0x130 then ['i', Char.ofNat 0x307]
  else match lowerRuns.findSome? (·.image? c.toNat) with
    | some n => [Char.ofNat n]
    | none => [c]

/-- The characters decide a final sigma by their first member that is not passed over. -/
def meetsCased (neighbours : List Char) : Bool :=
  match neighbours.dropWhile (inRanges caseIgnorableRanges) with
  | [] => false
  | c :: _ => inRanges casedRanges c

/-- Lowers the text after the characters of `before`, which are in reverse order. -/
def lowerAfter (before : List Char) : List Char → List Char
  | [] => []
  | c :: rest =>
    let image :=
      if c.toNat = 0x3A3 then
        if meetsCased before && !meetsCased rest then [Char.ofNat 0x3C2] else [Char.ofNat 0x3C3]
      else lowerChar c
    image ++ lowerAfter (c :: before) rest

/-- The lower-case form of a text. -/
def lower (s : String) : String := String.ofList (lowerAfter [] s.toList)

/-- The characters outside ASCII whose case folding is ASCII. -/
def asciiFolds : List (Nat × List Char) :=
  [(0xDF, ['s', 's']), (0x17F, ['s']), (0x1E9E, ['s', 's']), (0x212A, ['k']),
    (0xFB00, ['f', 'f']), (0xFB01, ['f', 'i']), (0xFB02, ['f', 'l']), (0xFB03, ['f', 'f', 'i']),
    (0xFB04, ['f', 'f', 'l']), (0xFB05, ['s', 't']), (0xFB06, ['s', 't'])]

/-- The case folding of a character, as far as it is ASCII. Other characters stay as they
are: their folding has a character outside ASCII too. -/
def asciiFoldChar (c : Char) : List Char :=
  if c.toNat < 0x80 then [c.toLower]
  else match asciiFolds.find? (·.1 = c.toNat) with
    | some (_, image) => image
    | none => [c]

/-- The case folding of a text, as far as it is ASCII. -/
def asciiFold (s : String) : List Char := s.toList.flatMap asciiFoldChar

/-- `s` and the ASCII word `word` are equal but for case. -/
def foldEq (s word : String) : Bool := asciiFold s == asciiFold word

end GeoMetadata.Text
