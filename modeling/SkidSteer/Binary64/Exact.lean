import SkidSteer.Binary64

namespace SkidSteer.Binary64

/-- A quotient rounded to the nearest whole number, a half to the even one. -/
def roundHalfEven (numerator denominator : Nat) : Nat :=
  let quotient := numerator / denominator
  let twice := 2 * (numerator % denominator)
  if denominator < twice || (twice == denominator && quotient % 2 == 1) then quotient + 1
  else quotient

def roundHalfUp (numerator denominator : Nat) : Nat :=
  (2 * numerator + denominator) / (2 * denominator)

/-- `significand * 2 ^ exponent` as a fraction. -/
def fraction (significand : Nat) (exponent : Int) : Nat × Nat :=
  if 0 ≤ exponent then (significand * Nat.pow 2 exponent.toNat, 1)
  else (significand, Nat.pow 2 (-exponent).toNat)

/-- The remainder of `x` after division by `y`, the quotient being rounded toward zero. It has the
sign of `x`, and is never rounded: it is a multiple of the smaller last place of both. -/
def remainder (x y : Float) : Float :=
  match (ofFloat x).read, (ofFloat y).read with
  | .finite negative m e, .finite _ n f =>
    if n = 0 then 0.0 / 0.0
    else
      let last := min e f
      (ofFinite negative
        ((m <<< (e - last).toNat) % (n <<< (f - last).toNat)) last).toFloat
  | .finite .., .infinite _ => x
  | _, _ => 0.0 / 0.0

/-- The least whole number that is not below `x`; a NaN or an infinity is its own. -/
def ceiling (x : Float) : Float :=
  match (ofFloat x).read with
  | .finite negative m e =>
    if 0 ≤ e then x
    else
      let unit := Nat.pow 2 (-e).toNat
      let whole := if negative || m % unit == 0 then m / unit else m / unit + 1
      (ofFinite negative whole 0).toFloat
  | _ => x

/-- The nearest whole number, a half away from zero; nothing for a NaN or an infinity. -/
def nearestInt? (x : Float) : Option Int :=
  match (ofFloat x).read with
  | .finite negative m e =>
    let (numerator, denominator) := fraction m e
    let magnitude : Int := roundHalfUp numerator denominator
    some (if negative then -magnitude else magnitude)
  | _ => none

end SkidSteer.Binary64
