import Mathlib
import SkidSteer.Planning.Planner

namespace SkidSteer

/-- Numbers without rounding, all of them finite. -/
noncomputable instance : Scalar ℝ where
  decidableLT := inferInstance
  ofCount n := n
  toCount x := ⌊x⌋₊
  isFinite _ := true
  pi := Real.pi
  abs x := |x|
  sqrt := Real.sqrt
  tan := Real.tan
  atan2 y x := Complex.arg ⟨x, y⟩
  powThreeHalves x := x ^ (3 / 2 : ℝ)
  remainder x y := x - y * (if 0 ≤ x / y then ⌊x / y⌋ else ⌈x / y⌉ : ℤ)
  ceiling x := (⌈x⌉ : ℤ)

namespace Scalar

@[simp] theorem toCount_real (x : ℝ) : toCount x = ⌊x⌋₊ := rfl
@[simp] theorem ofCount_real (n : Nat) : (ofCount n : ℝ) = n := rfl
@[simp] theorem abs_real (x : ℝ) : Scalar.abs x = |x| := rfl
@[simp] theorem sqrt_real (x : ℝ) : Scalar.sqrt x = Real.sqrt x := rfl
@[simp] theorem tan_real (x : ℝ) : Scalar.tan x = Real.tan x := rfl
@[simp] theorem pi_real : (Scalar.pi : ℝ) = Real.pi := rfl
@[simp] theorem isFinite_real (x : ℝ) : Scalar.isFinite x = true := rfl
@[simp] theorem square_real (x : ℝ) : square x = x ^ 2 := (sq x).symm

@[simp] theorem isPositive_real (x : ℝ) : isPositive x = true ↔ 0 < x := by
  simp only [isPositive, isFinite_real, Bool.true_and, decide_eq_true_eq]
  norm_num

end Scalar

theorem Limits.isValid_real (limits : Limits ℝ) :
    limits.isValid = true ↔ 0 < limits.velocity ∧ 0 < limits.acceleration ∧ 0 < limits.jerk := by
  simp [isValid, and_assoc]

theorem Planner.split_real (p : Planner ℝ) (middle curvature : ℝ) :
    p.split middle curvature =
      (middle * (1 - curvature * p.wheelTrack / 2),
        middle * (1 + curvature * p.wheelTrack / 2)) := by
  simp only [split]
  norm_num

namespace Spline

theorem slope_real (s : Spline ℝ) (x : ℝ) : s.slope x = 3 * s.a * x * x + 2 * s.b * x + s.c := by
  simp only [slope]
  norm_num

theorem curvature_real (s : Spline ℝ) (x : ℝ) :
    s.curvature x = (6 * s.a * x + 2 * s.b) / (1 + s.slope x * s.slope x) ^ (3 / 2 : ℝ) := by
  change (6.0 * s.a * x + 2.0 * s.b) / (1.0 + s.slope x * s.slope x) ^ (3 / 2 : ℝ) = _
  norm_num

theorem ofSlopes_real (start finish chord : ℝ) : ofSlopes start finish chord =
    ⟨(start + finish) / (chord * chord), -(2 * start + finish) / chord, start, chord⟩ := by
  simp only [ofSlopes]
  norm_num

end Spline

namespace VelocityProfile

theorem duration_real (p : VelocityProfile ℝ) : p.duration = 2 * p.rampTime + p.cruiseTime := by
  simp only [duration]
  norm_num

theorem ofDistance_real (distance : ℝ) (limits : Limits ℝ) : ofDistance distance limits =
    if distance < 2 * (limits.velocity ^ 2 / (2 * limits.acceleration)) then
      ⟨limits.acceleration, Real.sqrt (distance * limits.acceleration),
        Real.sqrt (distance * limits.acceleration) / limits.acceleration, 0, distance⟩
    else
      ⟨limits.acceleration, limits.velocity, limits.velocity / limits.acceleration,
        (distance - 2 * (limits.velocity ^ 2 / (2 * limits.acceleration))) / limits.velocity,
        distance⟩ := by
  simp only [ofDistance, Scalar.square_real]
  norm_num
  split_ifs <;> rfl

theorem motionAt_real (p : VelocityProfile ℝ) (t : ℝ) : p.motionAt t =
    if t < p.rampTime then ⟨p.acceleration * t * t / 2, p.acceleration * t, p.acceleration⟩
    else if t < p.rampTime + p.cruiseTime then
      ⟨p.acceleration * p.rampTime * p.rampTime / 2 + p.peak * (t - p.rampTime), p.peak, 0⟩
    else if t < p.duration then
      ⟨p.distance - p.acceleration * (p.duration - t) * (p.duration - t) / 2,
        p.acceleration * (p.duration - t), -p.acceleration⟩
    else ⟨p.distance, 0, 0⟩ := by
  simp only [motionAt]
  split_ifs <;> norm_num <;> ring

end VelocityProfile

/-- What rises at a rate of one from `start` on. -/
noncomputable def rise (start t : ℝ) : ℝ := max 0 (t - start)

noncomputable def riseArea (start t : ℝ) : ℝ := rise start t ^ 2 / 2

/-- The area under a function by the trapezoid rule, in so many steps of a width. -/
noncomputable def trapezoidSum (f : ℝ → ℝ) (width : ℝ) : Nat → ℝ
  | 0 => 0
  | steps + 1 => trapezoidSum f width steps +
      (f (steps * width) + f ((steps + 1 : Nat) * width)) / 2 * width

namespace Waypoint

/-- Where the chassis passes, in the complex plane. -/
def place (w : Waypoint ℝ) : ℂ := ⟨w.x, w.y⟩

noncomputable def translated (dx dy : ℝ) (w : Waypoint ℝ) : Waypoint ℝ :=
  ⟨w.x + dx, w.y + dy, w.heading⟩

noncomputable def rotated (angle : ℝ) (w : Waypoint ℝ) : Waypoint ℝ :=
  ⟨Real.cos angle * w.x - Real.sin angle * w.y, Real.sin angle * w.x + Real.cos angle * w.y,
    w.heading + angle⟩

noncomputable def turned (turns : ℤ) (w : Waypoint ℝ) : Waypoint ℝ :=
  ⟨w.x, w.y, w.heading + turns * (2 * Real.pi)⟩

noncomputable def reflected (w : Waypoint ℝ) : Waypoint ℝ := ⟨w.x, -w.y, -w.heading⟩

end Waypoint

/-- The motion of the middle of the chassis. -/
noncomputable def Sample.middle (sample : Sample ℝ) : Segment ℝ :=
  ⟨(sample.left.position + sample.right.position) / 2,
    (sample.left.velocity + sample.right.velocity) / 2,
    (sample.left.acceleration + sample.right.acceleration) / 2⟩

namespace Planner

variable (p : Planner ℝ) (table : CurvatureTable ℝ) (profile : VelocityProfile ℝ)

noncomputable def speed (index : Nat) : ℝ := (profile.motionAt (index * p.samplePeriod)).velocity

noncomputable def bend (index : Nat) : ℝ :=
  table.curvatureAt (profile.motionAt (index * p.samplePeriod)).distance

/-- How much faster than the middle the right wheel is at a step, and how much slower the left. -/
noncomputable def lead (index : Nat) : ℝ :=
  p.speed profile index * (p.bend table profile index * p.wheelTrack / 2)

end Planner

end SkidSteer
