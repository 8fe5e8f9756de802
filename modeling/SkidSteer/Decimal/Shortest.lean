import SkidSteer.Binary64.Exact

namespace SkidSteer

structure Decimal where
  digits : Nat
  exponent : Int
  deriving DecidableEq, Repr

namespace Decimal

def digitCount (n : Nat) : Nat := (Nat.toDigits 10 n).length

/-- The exponent of the digit before the point when one digit stands there. -/
def leading (d : Decimal) : Int := d.exponent + (digitCount d.digits : Int) - 1

/-- The same value with no zero at the end of its digits; `fuel` bounds their number. -/
def trimmed : Nat → Decimal → Decimal
  | 0, d => d
  | fuel + 1, d =>
    if d.digits ≠ 0 ∧ d.digits % 10 = 0 then trimmed fuel ⟨d.digits / 10, d.exponent + 1⟩ else d

/-- How many digits stand before the point of a positive fraction, or less than one when zeros
follow the point. -/
def magnitude (numerator denominator : Nat) : Int :=
  if denominator ≤ numerator then digitCount (numerator / denominator)
  else 1 - (digitCount ((denominator - 1) / numerator) : Int)

/-- The numbers that round to a word: from `low` to `high` around `value`, in common units, the
ends included when the word's significand is even. -/
structure Rounding where
  low : Nat
  value : Nat
  high : Nat
  unit : Nat
  closed : Bool

/-- The neighbours of `significand * 2 ^ exponent` are half a last place away, except that below a
power of two the places are half as wide. -/
def Rounding.ofWord (significand : Nat) (exponent : Int) : Rounding :=
  let below := if significand = Nat.pow 2 52 ∧ -1074 < exponent then 1 else 2
  let scale := Nat.pow 2 (exponent - 2).toNat
  ⟨(4 * significand - below) * scale, 4 * significand * scale, (4 * significand + 2) * scale,
    Nat.pow 2 (2 - exponent).toNat, significand % 2 == 0⟩

/-- The multiple of `10 ^ exponent` nearest to the value, if one next to it lies in the interval. -/
def Rounding.onGrid? (r : Rounding) (exponent : Int) : Option Decimal :=
  let scale := Nat.pow 10 (-exponent).toNat
  let step := r.unit * Nat.pow 10 exponent.toNat
  let value := r.value * scale
  let floor := value / step
  let lowFits := if r.closed then r.low * scale ≤ floor * step else r.low * scale < floor * step
  let highFits := if r.closed then (floor + 1) * step ≤ r.high * scale
    else (floor + 1) * step < r.high * scale
  if lowFits ∧ (¬ highFits ∨ 2 * (value % step) < step) then some ⟨floor, exponent⟩
  else if highFits then some ⟨floor + 1, exponent⟩
  else none

/-- The first grid with a hit, from the coarsest; 17 digits always hit. -/
def Rounding.shortest (r : Rounding) : Decimal :=
  let size := magnitude r.value r.unit
  match (List.range' 1 17).findSome? fun (count : Nat) => r.onGrid? (size - count) with
  | some d => d.trimmed 20
  | none => ⟨0, 0⟩

def shortest (significand : Nat) (exponent : Int) : Decimal :=
  if significand = 0 then ⟨0, 0⟩ else (Rounding.ofWord significand exponent).shortest

end Decimal

end SkidSteer
