import GeoMetadata.Number.Rounding

/-!
# Binary floating-point numbers of 64 bits

A finite number is a sign, a natural mantissa and a power of two; the numbers that the
library makes have a mantissa below `2 ^ 53` and an exponent from `-1074` to `971`, with the
mantissa at least `2 ^ 52` where the exponent is not the least.  `ofRatio` gives the number
nearest to a quotient of naturals, a half going to the even mantissa, and everything else
that makes a number goes through it.
-/

namespace GeoMetadata.Number

/-- A floating-point number. A finite one is `± mantissa · 2 ^ exponent`. -/
inductive Binary64 where
  | finite (negative : Bool) (mantissa : Nat) (exponent : Int)
  | infinite (negative : Bool)
  | nan
  deriving DecidableEq, Repr

namespace Binary64

/-- The exponent of the smallest numbers. -/
def leastExponent : Int := -1074

/-- The exponent of the largest numbers. -/
def greatestExponent : Int := 971

/-- Zero with a sign. -/
def zero (negative : Bool) : Binary64 := .finite negative 0 leastExponent

/-- The exponent that leaves a mantissa of 53 bits for `num / den`, or the least one. -/
def exponentFor (num den : Nat) : Int :=
  let e : Int := (num.log2 : Int) - den.log2 - 52
  let scaled := scaleTwo den e
  max leastExponent (if num * scaled.2 < scaled.1 * Nat.pow 2 52 then e - 1 else e)

/-- The number nearest to `± num / den`. Beyond the largest finite numbers it is infinite. -/
def ofRatio (negative : Bool) (num den : Nat) : Binary64 :=
  if num = 0 then zero negative
  else
    let e := exponentFor num den
    let scaled := scaleTwo den e
    let m := roundDiv (num * scaled.2) scaled.1
    let m' := if m = Nat.pow 2 53 then Nat.pow 2 52 else m
    let e' := if m = Nat.pow 2 53 then e + 1 else e
    if greatestExponent < e' then .infinite negative else .finite negative m' e'

/-- The number nearest to `± digits · 10 ^ exponent`. Powers of ten far outside the range
are decided by the number of digits alone. -/
def ofDecimal (negative : Bool) (digits : Nat) (exponent : Int) : Binary64 :=
  if digits = 0 then zero negative
  else
    let magnitude := exponent + decimalLength digits
    if 400 < magnitude then .infinite negative
    else if magnitude < -400 then zero negative
    else
      let scaled := scaleTen digits exponent
      ofRatio negative scaled.1 scaled.2

/-- The number nearest to an integer, if it is finite. -/
def ofInt? (n : Int) : Option Binary64 :=
  match ofRatio (n < 0) n.natAbs 1 with
  | .finite s m e => some (.finite s m e)
  | _ => none

/-- The mantissa of a finite number with its sign. -/
def signed (negative : Bool) (mantissa : Nat) : Int := if negative then -(mantissa : Int) else mantissa

/-- The signed mantissa of a finite number brought to the exponent `base`, which is not
above its own. -/
def signedAt (negative : Bool) (mantissa : Nat) (exponent base : Int) : Int :=
  signed negative (mantissa * Nat.pow 2 (exponent - base).toNat)

/-- The order of the numbers on the line. Nothing is below or above NaN, and the two zeros
are equal. -/
def lt : Binary64 → Binary64 → Bool
  | .nan, _ => false
  | _, .nan => false
  | .infinite s, .infinite t => s && !t
  | .infinite s, .finite .. => s
  | .finite .., .infinite t => !t
  | .finite s m e, .finite t n f =>
    let base := min e f
    signedAt s m e base < signedAt t n f base

/-- The two are the same point of the line; NaN is no point. -/
def same : Binary64 → Binary64 → Bool
  | .nan, _ => false
  | _, .nan => false
  | x, y => !lt x y && !lt y x

/-- The least of a list, as found from the left: a number replaces the one found so far
only if it is strictly below it. -/
def least? : List Binary64 → Option Binary64
  | [] => none
  | x :: xs => some (xs.foldl (fun found y => if y.lt found then y else found) x)

/-- The greatest of a list, as found from the left: a number replaces the one found so far
only if it is strictly above it. -/
def greatest? : List Binary64 → Option Binary64
  | [] => none
  | x :: xs => some (xs.foldl (fun found y => if found.lt y then y else found) x)

/-- The number with its sign changed. -/
def neg : Binary64 → Binary64
  | .finite s m e => .finite (!s) m e
  | .infinite s => .infinite (!s)
  | .nan => .nan

end Binary64

end GeoMetadata.Number
