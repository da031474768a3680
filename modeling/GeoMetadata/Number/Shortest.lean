import GeoMetadata.Number.Binary64

/-!
# The shortest decimal that reads back

For a positive number `mantissa · 2 ^ exponent`, the reals nearer to it than to any other
number form an interval; its ends belong to it if the mantissa is even.  `shortest` finds the
fewest decimal digits that lie in that interval, and of the candidates with that many digits
the one nearest to the number, an exact tie going to the even last digit.  A grid of decimals
meets the interval only if one of the number's two neighbours on the grid lies in it, so
only those two are tried.
-/

namespace GeoMetadata.Number

/-- A positive decimal `0.d₁d₂… · 10 ^ point`, by the integer its digits form. -/
structure Digits where
  digits : Nat
  point : Int
  deriving DecidableEq, Repr

/-- The decimal point of `num / den`: the integer `p` with `10 ^ (p - 1) ≤ num / den < 10 ^ p`.
Both are positive. -/
def pointOf (num den : Nat) : Int :=
  if den ≤ num then decimalLength (num / den)
  else 1 - (decimalLength ((den - 1) / num) : Int)

/-- The interval of reals that round to a number, in quarters of its last place: the number,
its lower end and its upper end. Below a power of two the numbers lie twice as close. -/
structure Quarters where
  value : Nat
  low : Nat
  high : Nat
  closed : Bool

/-- The interval around `mantissa · 2 ^ exponent`. -/
def quarters (mantissa : Nat) (exponent : Int) : Quarters :=
  { value := 4 * mantissa
    low := if mantissa = Nat.pow 2 52 ∧ Binary64.leastExponent < exponent then 4 * mantissa - 1
      else 4 * mantissa - 2
    high := 4 * mantissa + 2
    closed := mantissa % 2 = 0 }

/-- The nearer of the two grid neighbours that lie in the interval, if there is one. A
quarter is `unit.1 / unit.2`, a step of the grid `step.1 / step.2`. -/
def gridHit? (interval : Quarters) (unit step : Nat × Nat) : Option Nat :=
  let onGrid (x : Nat) : Nat := x * unit.1 * step.2
  let width := unit.2 * step.1
  let inside (c : Nat) : Bool :=
    let here := c * width
    if interval.closed then onGrid interval.low ≤ here && here ≤ onGrid interval.high
    else onGrid interval.low < here && here < onGrid interval.high
  let below := onGrid interval.value / width
  let rest := onGrid interval.value % width
  match inside below, inside (below + 1) with
  | false, false => none
  | true, false => some below
  | false, true => some (below + 1)
  | true, true =>
    if 2 * rest < width then some below
    else if width < 2 * rest then some (below + 1)
    else if below % 2 = 0 then some below else some (below + 1)

/-- Tries grids of `count` digits and more, `fuel` of them. -/
def shortestFrom (interval : Quarters) (unit : Nat × Nat) (point : Int) :
    Nat → Nat → Digits
  | 0, _ => ⟨interval.value, point⟩
  | fuel + 1, count =>
    match gridHit? interval unit (scaleTen 1 (point - count)) with
    | some d => if d = Nat.pow 10 count then ⟨1, point + 1⟩ else ⟨d, point⟩
    | none => shortestFrom interval unit point fuel (count + 1)

/-- The shortest decimal that reads back as the positive number `mantissa · 2 ^ exponent`.
Seventeen digits are always enough. -/
def shortest (mantissa : Nat) (exponent : Int) : Digits :=
  let unit := scaleTwo 1 (exponent - 2)
  let interval := quarters mantissa exponent
  shortestFrom interval unit (pointOf (interval.value * unit.1) unit.2) 17 1

end GeoMetadata.Number
