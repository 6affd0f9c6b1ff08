import PluginSurface.Number.Decimal

/-!
Texts of doubles. A layout says how the shortest decimal of a double is laid
out: between which exponents it is written in positional notation, whether a
whole number keeps a fraction digit, and how a tie between two shortest
decimals is broken.
-/

namespace PluginSurface

open Binary64 Decimal

/-- How the digits of a double are laid out as text. -/
structure NumberLayout where
  tie : Tie
  /-- Whether a number whose leading digit has this exponent is written
  positionally. -/
  isPositional : Int → Bool
  /-- Whether a whole number whose leading digit has this exponent ends in `.0`
  in positional notation. -/
  keepsFraction : Int → Bool

namespace NumberLayout

/-- Values shown to a reader never have an exponent. -/
def display : NumberLayout := ⟨.upward, fun _ => true, fun _ => false⟩

/-- Defaults in signatures never have an exponent, and whole numbers below ten
to the sixteenth have a fraction digit, so that they differ from integers. -/
def signature : NumberLayout :=
  ⟨.upward, fun _ => true, fun leading => leading < 16⟩

/-- Document numbers are positional from 0.00001 up to ten to the
sixteenth. -/
def json : NumberLayout :=
  ⟨.toEven, fun leading => -5 ≤ leading && leading < 16, fun _ => true⟩

def zeros (count : Nat) : String :=
  String.ofList (List.replicate count '0')

/-- Positional notation of `digits * 10 ^ exponent`. -/
def positional (keepsFraction : Bool) (value : Scaled) : String :=
  let text := toString value.digits
  if 0 ≤ value.exponent then
    text ++ zeros value.exponent.toNat ++ if keepsFraction then ".0" else ""
  else
    let places := (-value.exponent).toNat
    if places < text.length then
      let whole := text.length - places
      String.ofList (text.toList.take whole) ++ "." ++
        String.ofList (text.toList.drop whole)
    else "0." ++ zeros (places - text.length) ++ text

/-- Scientific notation: one digit before the point, and an exponent that always
has a sign. -/
def scientific (leading : Int) (value : Scaled) : String :=
  let digits := (toString value.digits).toList
  let mantissa :=
    match digits with
    | [] => ""
    | first :: [] => String.ofList [first]
    | first :: rest => String.ofList (first :: '.' :: rest)
  let size := toString leading.natAbs
  mantissa ++ (if leading < 0 then "e-" else "e+") ++ size

def magnitude (layout : NumberLayout) (significand : Nat) (exponent : Int) :
    String :=
  if significand == 0 then if layout.keepsFraction 0 then "0.0" else "0"
  else
    let value := shortest layout.tie significand exponent
    let leading := value.exponent + (digitCount value.digits - 1)
    if layout.isPositional leading then
      positional (layout.keepsFraction leading) value
    else scientific leading value

def render (layout : NumberLayout) (value : Float) : String :=
  match read value with
  | .notANumber => "NaN"
  | .infinite negative => if negative then "-inf" else "inf"
  | .finite negative significand exponent =>
      (if negative then "-" else "") ++
        layout.magnitude significand exponent

end NumberLayout

end PluginSurface
