import GeoMetadata.Text.Digits
import GeoMetadata.Text.Quoted

/-!
# Integers as text

Integers have any size, but their decimal text is limited: a text of more than
`digitLimit` digits is neither written nor read.
-/

namespace GeoMetadata.Number

open Text

/-- The greatest number of digits of an integer's text. -/
def digitLimit : Nat := 4300

/-- Why an integer has no text, or a text no integer. -/
inductive IntegerFault where
  /-- The integer has too many digits to be written. -/
  | tooLongToWrite
  /-- The text has too many digits to be read. -/
  | tooLongToRead (digits : Nat)
  /-- The text is not a numeral. -/
  | notNumeral (text : String)
  deriving DecidableEq, Repr

/-- The advice at the end of the messages on length. -/
def limitAdvice : String := "; use sys.set_int_max_str_digits() to increase the limit"

/-- What is said about an integer or a text at fault. -/
def IntegerFault.message : IntegerFault → String
  | .tooLongToWrite =>
    "Exceeds the limit (4300 digits) for integer string conversion" ++ limitAdvice
  | .tooLongToRead digits =>
    "Exceeds the limit (4300 digits) for integer string conversion: value has "
      ++ toString digits ++ " digits" ++ limitAdvice
  | .notNumeral text =>
    "invalid literal for int() with base 10: "
      ++ String.ofList ((quoted text).toList.take 200)

/-- The decimal text of an integer, of any length. -/
def decimalText (n : Int) : List Char :=
  if n < 0 then '-' :: Nat.toDigits 10 n.natAbs else Nat.toDigits 10 n.natAbs

/-- The decimal text of an integer within the limit. -/
def integerText (n : Int) : Except IntegerFault String :=
  if (Nat.toDigits 10 n.natAbs).length ≤ digitLimit then .ok (String.ofList (decimalText n))
  else .error .tooLongToWrite

/-- Reads a numeral of decimal digits of any script. Its length is looked at before a
character that is no digit. -/
def readNatural (text : String) : Except IntegerFault Nat :=
  let digits := text.toList.takeWhile fun c => (digitValue? c).isSome
  if digitLimit < digits.length then .error (.tooLongToRead digits.length)
  else match readDigits? text.toList with
    | some n => .ok n
    | none => .error (.notNumeral text)

end GeoMetadata.Number
