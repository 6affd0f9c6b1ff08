import PluginSurface.Number.Binary64

/-!
The shortest decimal that reads back as a given double. The reals that round to
a positive double `significand * 2 ^ exponent` form an interval around it; of
the decimals in it with the fewest digits, the nearest one is taken. On the
grid of decimals with a given number of digits only the value's two neighbours
have to be tried: if any point of the grid lies in the interval, so does one of
them.
-/

namespace PluginSurface.Decimal

open Binary64

/-- Which of two decimals at the same distance is taken. -/
inductive Tie where
  | toEven
  | upward

/-- `digits * 10 ^ exponent`. -/
structure Scaled where
  digits : Nat
  exponent : Int

/-- Moves trailing zeros of the digits into the exponent. The first argument
bounds how many. -/
def stripZeros : Nat → Scaled → Scaled
  | 0, value => value
  | bound + 1, value =>
      if value.digits % 10 == 0 && value.digits != 0 then
        stripZeros bound ⟨value.digits / 10, value.exponent + 1⟩
      else value

/-- Whether a positive double lies exactly halfway into a wider gap above it
than below it, which is so at the powers of two above the least one. -/
def hasNarrowGapBelow (significand : Nat) (exponent : Int) : Bool :=
  significand == powerOfTwo 52 && exponent != -1074

/-- The point of the decimal grid with unit `10 ^ unit` that is nearest to a
positive double among the grid's points in its rounding interval. All four
quantities are compared over one common denominator. -/
def onGrid? (tie : Tie) (significand : Nat) (exponent unit : Int) :
    Option Scaled :=
  let valueScale := powerOfTwo exponent.toNat * powerOfTen (-unit).toNat
  let pointScale := 4 * powerOfTen unit.toNat * powerOfTwo (-exponent).toNat
  let value := 4 * significand * valueScale
  let low :=
    (4 * significand -
      if hasNarrowGapBelow significand exponent then 1 else 2) * valueScale
  let high := (4 * significand + 2) * valueScale
  let inside (point : Nat) : Bool :=
    if significand % 2 == 0 then
      low ≤ point * pointScale && point * pointScale ≤ high
    else low < point * pointScale && point * pointScale < high
  let below := value / pointScale
  let above := below + 1
  let belowDistance := value - below * pointScale
  let aboveDistance := above * pointScale - value
  let takesAbove : Bool :=
    if belowDistance == aboveDistance then
      match tie with
      | .toEven => below % 2 == 1
      | .upward => true
    else aboveDistance < belowDistance
  match inside below && below != 0, inside above with
  | true, true => some ⟨if takesAbove then above else below, unit⟩
  | true, false => some ⟨below, unit⟩
  | false, true => some ⟨above, unit⟩
  | false, false => none

/-- The exponent of the leading digit of a positive double: the greatest
`power` with `10 ^ power ≤ significand * 2 ^ exponent`. -/
def leadingExponent (significand : Nat) (exponent : Int) : Int :=
  let numerator := significand * powerOfTwo exponent.toNat
  let denominator := powerOfTwo (-exponent).toNat
  let estimate : Int := (digitCount numerator : Int) - digitCount denominator
  if denominator * powerOfTen estimate.toNat ≤
      numerator * powerOfTen (-estimate).toNat then estimate
  else estimate - 1

/-- Tries grids of `digits`, `digits + 1`, … decimal digits, at most `bound`
of them. -/
def shortestFrom (tie : Tie) (significand : Nat) (exponent leading : Int) :
    Nat → Nat → Scaled
  | 0, _ => ⟨significand, exponent⟩
  | bound + 1, digits =>
      match onGrid? tie significand exponent (leading + 1 - digits) with
      | some value => stripZeros 20 value
      | none => shortestFrom tie significand exponent leading bound (digits + 1)

/-- The shortest decimal that reads back as a positive double. Seventeen digits
always suffice. -/
def shortest (tie : Tie) (significand : Nat) (exponent : Int) : Scaled :=
  shortestFrom tie significand exponent
    (leadingExponent significand exponent) 17 1

end PluginSurface.Decimal
