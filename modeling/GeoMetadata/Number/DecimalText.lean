import GeoMetadata.Number.Shortest
import GeoMetadata.Text.Digits

/-!
# Numbers as text

A number is written in one of two ways.  `shortText` has the fewest digits that read back: it
is positional for magnitudes from `10 ^ -4` to below `10 ^ 16` and always has a decimal point
there, and otherwise has an exponent with a sign and at least two digits.  `fixedText` has a
fixed number of decimals, rounded from the exact value with a half going to the even digit.
-/

namespace GeoMetadata.Number

/-- Where a number is written positionally, and how its exponent is written otherwise. -/
structure ShortFormat where
  /-- The least decimal point that is written positionally. -/
  leastPoint : Int
  /-- The greatest decimal point that is written positionally. -/
  greatestPoint : Int
  /-- The least number of digits of an exponent. -/
  exponentWidth : Nat

/-- Decimals of values: positional from `0.0001` to below `10 ^ 16`. -/
def valueFormat : ShortFormat := ⟨-3, 16, 2⟩

/-- The minus sign of a negative number. -/
def signText (negative : Bool) : List Char := if negative then ['-'] else []

/-- A positive decimal in positional notation, with at least one digit on either side of the
point. -/
def positional (d : Digits) : List Char :=
  let digits := Nat.toDigits 10 d.digits
  if d.point ≤ 0 then '0' :: '.' :: (List.replicate (-d.point).toNat '0' ++ digits)
  else
    let whole := d.point.toNat
    if digits.length ≤ whole then
      digits ++ List.replicate (whole - digits.length) '0' ++ ['.', '0']
    else digits.take whole ++ '.' :: digits.drop whole

/-- A positive decimal with an exponent. -/
def scientific (format : ShortFormat) (d : Digits) : List Char :=
  let digits := Nat.toDigits 10 d.digits
  let exponent := d.point - 1
  let mantissa := match digits with
    | [] => []
    | [c] => [c]
    | c :: rest => c :: '.' :: rest
  mantissa ++ 'e' :: (if exponent < 0 then '-' else '+') ::
    Text.padded format.exponentWidth exponent.natAbs

/-- A number with the fewest digits that read back. -/
def shortText (x : Binary64) : List Char :=
  match x with
  | .nan => "nan".toList
  | .infinite s => signText s ++ "inf".toList
  | .finite s 0 _ => signText s ++ ['0', '.', '0']
  | .finite s m e =>
    let d := shortest m e
    signText s ++
      if valueFormat.leastPoint ≤ d.point ∧ d.point ≤ valueFormat.greatestPoint then positional d
      else scientific valueFormat d

/-- A number with `places` decimals. -/
def fixedText (places : Nat) (x : Binary64) : List Char :=
  match x with
  | .nan => "nan".toList
  | .infinite s => signText s ++ "inf".toList
  | .finite s m e =>
    let scaled := scaleTwo m e
    let unit := Nat.pow 10 places
    let n := roundDiv (scaled.1 * unit) scaled.2
    signText s ++ Nat.toDigits 10 (n / unit) ++ '.' :: Text.padded places (n % unit)

end GeoMetadata.Number
