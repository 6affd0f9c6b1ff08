/-!
Double-precision numbers as exact rationals. A finite double is a sign and a
product `significand * 2 ^ exponent`; `ofRatio` goes back, rounding to the
nearest double and a tie to the even significand. Reading decimals and the
remainder of a division are exact computations between these two ends.
-/

namespace PluginSurface.Binary64

def powerOfTwo (exponent : Nat) : Nat :=
  1 <<< exponent

def powerOfTen (exponent : Nat) : Nat :=
  Nat.pow 10 exponent

/-- What the 64 bits of a double stand for. -/
inductive Reading where
  | notANumber
  | infinite (negative : Bool)
  | finite (negative : Bool) (significand : Nat) (exponent : Int)

/-- Reads the bits of a double: one sign bit, eleven bits of biased exponent
and 52 bits of fraction. -/
def read (value : Float) : Reading :=
  let bits := value.toBits.toNat
  let negative := bits / powerOfTwo 63 == 1
  let biased := bits / powerOfTwo 52 % 2048
  let fraction := bits % powerOfTwo 52
  if biased == 2047 then
    if fraction == 0 then .infinite negative else .notANumber
  else if biased == 0 then .finite negative fraction (-1074)
  else .finite negative (powerOfTwo 52 + fraction) (biased - 1075)

/-- The double with the given sign and the given low 63 bits. -/
def ofMagnitude (negative : Bool) (magnitude : Nat) : Float :=
  Float.ofBits
    (UInt64.ofNat (magnitude + if negative then powerOfTwo 63 else 0))

def infiniteMagnitude : Nat :=
  2047 * powerOfTwo 52

def infinity (negative : Bool) : Float :=
  ofMagnitude negative infiniteMagnitude

def notANumber : Float :=
  ofMagnitude false (infiniteMagnitude + powerOfTwo 51)

/-- A quotient rounded to the nearest whole number, a tie to the even one. -/
def roundQuotient (numerator denominator : Nat) : Nat :=
  let quotient := numerator / denominator
  let twice := 2 * (numerator % denominator)
  if denominator < twice || (twice == denominator && quotient % 2 == 1) then
    quotient + 1
  else quotient

/-- The low 63 bits of the double nearest to a positive quotient. The unit in
the last place is chosen so that the rounded significand has 53 bits, or is
the least unit there is; since the encoding of a significand that rounds up to
`2 ^ 53` is the next exponent's, no separate carry is needed. -/
def magnitudeOfRatio (numerator denominator : Nat) : Nat :=
  let estimate : Int := (numerator.log2 : Int) - denominator.log2
  let fits (unit : Int) : Bool :=
    numerator * powerOfTwo (-unit).toNat <
      denominator * powerOfTwo unit.toNat * powerOfTwo 53
  let least := if fits (estimate - 53) then estimate - 53 else estimate - 52
  let unit := if least < -1074 then -1074 else least
  let rounded :=
    roundQuotient (numerator * powerOfTwo (-unit).toNat)
      (denominator * powerOfTwo unit.toNat)
  let magnitude := (unit + 1074).toNat * powerOfTwo 52 + rounded
  if infiniteMagnitude < magnitude then infiniteMagnitude else magnitude

def ofRatio (negative : Bool) (numerator denominator : Nat) : Float :=
  if numerator == 0 then ofMagnitude negative 0
  else ofMagnitude negative (magnitudeOfRatio numerator denominator)

/-- The double nearest to `significand * 2 ^ exponent`. -/
def ofScaled (negative : Bool) (significand : Nat) (exponent : Int) : Float :=
  ofRatio negative (significand * powerOfTwo exponent.toNat)
    (powerOfTwo (-exponent).toNat)

def ofInt (value : Int) : Float :=
  ofRatio (value < 0) value.natAbs 1

/-- The whole part of a double, kept within 64 signed bits. -/
def truncate (value : Float) : Int :=
  let greatest : Int := 9223372036854775807
  let least : Int := -9223372036854775808
  match read value with
  | .notANumber => 0
  | .infinite negative => if negative then least else greatest
  | .finite negative significand exponent =>
      let magnitude : Int :=
        significand * powerOfTwo exponent.toNat / powerOfTwo (-exponent).toNat
      let value := if negative then -magnitude else magnitude
      if value < least then least
      else if greatest < value then greatest
      else value

def digitCount (value : Nat) : Nat :=
  (Nat.toDigits 10 value).length

/-- The double nearest to `digits * 10 ^ exponent`. Numbers of at least
`10 ^ 310` are infinite and numbers below `10 ^ -330` are zero, whatever the
exponent. -/
def ofDecimal (digits : Nat) (exponent : Int) : Float :=
  let magnitude := exponent + digitCount digits
  if digits == 0 || magnitude < -330 then ofMagnitude false 0
  else if 310 < magnitude then infinity false
  else
    ofRatio false (digits * powerOfTen exponent.toNat)
      (powerOfTen (-exponent).toNat)

/-- The remainder of a division that truncates: it has the dividend's sign and
is exact. A dividend without a finite quotient gives no number; an infinite
divisor leaves the dividend as it is. -/
def remainder (dividend divisor : Float) : Float :=
  match read dividend, read divisor with
  | .finite negative left leftExponent, .finite _ right rightExponent =>
      if right == 0 then notANumber
      else
        let unit := if leftExponent < rightExponent then leftExponent
          else rightExponent
        let left := left * powerOfTwo (leftExponent - unit).toNat
        let right := right * powerOfTwo (rightExponent - unit).toNat
        ofScaled negative (left % right) unit
  | .finite .., .infinite _ => dividend
  | _, _ => notANumber

end PluginSurface.Binary64
