import SkidSteer.Decimal.Shortest

namespace SkidSteer.Decimal

/-- When shortest digits get an exponent, and whether a whole number shows its point. -/
structure Style where
  /-- The leading exponents that are written without an exponent. -/
  positional : Int → Bool
  /-- Whether a whole number ends in `.0`. -/
  showPoint : Bool

/-- Never an exponent, and no point in a whole number. -/
def plainStyle : Style := ⟨fun _ => true, false⟩

/-- An exponent below `0.0001` and from `1e16` on, and always a point otherwise. -/
def detailedStyle : Style := ⟨fun leading => -4 ≤ leading && leading < 16, true⟩

def zeros (n : Nat) : String := String.ofList (List.replicate n '0')

def withSign (negative : Bool) (text : String) : String :=
  if negative then "-" ++ text else text

/-- Digits with a point `places` digits from their end. -/
def withPoint (digits : String) (places : Nat) : String :=
  let padded := zeros (places + 1 - digits.length) ++ digits
  let whole := padded.toList.take (padded.length - places)
  let rest := padded.toList.drop (padded.length - places)
  String.ofList whole ++ (if places = 0 then "" else "." ++ String.ofList rest)

def positionalText (style : Style) (d : Decimal) : String :=
  if 0 ≤ d.exponent then
    toString d.digits ++ zeros (if d.digits = 0 then 0 else d.exponent.toNat)
      ++ (if style.showPoint then ".0" else "")
  else withPoint (toString d.digits) (-d.exponent).toNat

def exponentText (d : Decimal) : String :=
  withPoint (toString d.digits) (digitCount d.digits - 1) ++ "e" ++ toString d.leading

def text (style : Style) (x : Float) : String :=
  match (Binary64.ofFloat x).read with
  | .nan => "NaN"
  | .infinite negative => withSign negative "inf"
  | .finite negative significand exponent =>
    let d := shortest significand exponent
    withSign negative <|
      if d.digits = 0 || style.positional d.leading then positionalText style d else exponentText d

def plain : Float → String := text plainStyle

def detailed : Float → String := text detailedStyle

/-- A number with `places` digits after the point, rounded from its exact value, a half to the even
last digit. The sign stays when only zeros are left. -/
def fixed (places : Nat) (x : Float) : String :=
  match (Binary64.ofFloat x).read with
  | .nan => "NaN"
  | .infinite negative => withSign negative "inf"
  | .finite negative significand exponent =>
    let (numerator, denominator) := Binary64.fraction significand exponent
    let units := Binary64.roundHalfEven (numerator * Nat.pow 10 places) denominator
    withSign negative (withPoint (toString units) places)

/-- The number nearest to `digits * 10 ^ exponent`; zero or an infinity beyond its range. -/
def toFloat (negative : Bool) (digits : Nat) (exponent : Int) : Float :=
  let size := exponent + (digitCount digits : Int)
  let magnitude :=
    if digits = 0 || size < -400 then 0.0
    else if 400 < size then Float.ofBits 0x7ff0000000000000
    else if 0 ≤ exponent then Float.ofScientific digits false exponent.toNat
    else Float.ofScientific digits true (-exponent).toNat
  if negative then -magnitude else magnitude

end SkidSteer.Decimal
