import SkidSteer.Binary64.Exact

namespace SkidSteer

/-- Numbers with the operations that planning and demand conversion use. -/
class Scalar (α : Type) extends Add α, Sub α, Mul α, Div α, Neg α, LT α, OfScientific α where
  decidableLT : DecidableLT α
  /-- The number of a count. -/
  ofCount : Nat → α
  /-- The count of a number that is whole and not negative. -/
  toCount : α → Nat
  isFinite : α → Bool
  pi : α
  abs : α → α
  sqrt : α → α
  tan : α → α
  /-- The angle of the vector `(x, y)` to the first axis, from `y` and `x`. -/
  atan2 : α → α → α
  /-- The power with exponent three halves. -/
  powThreeHalves : α → α
  /-- The remainder of a quotient rounded toward zero. -/
  remainder : α → α → α
  /-- The least whole number that is not below. -/
  ceiling : α → α

namespace Scalar

variable {α : Type} [Scalar α]

instance : DecidableLT α := decidableLT

/-- Half a turn and the numbers beside it come from `Float`'s own operations where those are exact
or correctly rounded; the three transcendental ones are the platform's. -/
instance : Scalar Float where
  decidableLT := inferInstance
  ofCount := Float.ofNat
  toCount x := x.toUInt64.toNat
  isFinite := Float.isFinite
  pi := Float.ofBits 0x400921fb54442d18
  abs := Float.abs
  sqrt := Float.sqrt
  tan := Float.tan
  atan2 := Float.atan2
  powThreeHalves x := Float.pow x 1.5
  remainder := Binary64.remainder
  ceiling := Binary64.ceiling

def square (x : α) : α := x * x

/-- `x`, or the end of `[low, high]` that it lies beyond. The upper end is looked at first. -/
@[specialize] def clamp (x low high : α) : α :=
  let capped := if high < x then high else x
  if capped < low then low else capped

/-- The place in `target` that `x` has in `source`, each given by its two ends. -/
@[specialize] def rescale (source target : α × α) (x : α) : α :=
  target.1 + (x - source.1) * (target.2 - target.1) / (source.2 - source.1)

/-- The remainder that is not negative: `|m|` is added to a negative one. -/
@[specialize] def leastResidue (x m : α) : α :=
  let r := remainder x m
  if r < 0.0 then r + abs m else r

/-- The angle in the half-open turn around zero. -/
@[specialize] def wrapAngle (angle : α) : α :=
  leastResidue (angle + pi) (pi + pi) - pi

/-- Above zero and finite. -/
@[specialize] def isPositive (x : α) : Bool := isFinite x && decide ((0.0 : α) < x)

theorem isPositive_iff {x : α} : isPositive x = true ↔ isFinite x = true ∧ (0.0 : α) < x := by
  rw [isPositive, Bool.and_eq_true, decide_eq_true_iff]

end Scalar

end SkidSteer
