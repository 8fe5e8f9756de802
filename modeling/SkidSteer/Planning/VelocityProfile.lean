import SkidSteer.Scalar
import SkidSteer.Trajectory

namespace SkidSteer

namespace Limits

variable {α : Type} [Scalar α]

/-- All three are above zero and finite. -/
@[specialize] def isValid (l : Limits α) : Bool :=
  Scalar.isPositive l.velocity && Scalar.isPositive l.acceleration && Scalar.isPositive l.jerk

end Limits

/-- Distance, speed and acceleration along the path at one instant. -/
structure Motion (α : Type) where
  distance : α
  velocity : α
  acceleration : α
  deriving DecidableEq

structure VelocityProfile (α : Type) where
  acceleration : α
  peak : α
  /-- How long the chassis speeds up, and how long it slows down. -/
  rampTime : α
  cruiseTime : α
  distance : α
  deriving DecidableEq

namespace VelocityProfile

variable {α : Type} [Scalar α]

@[specialize] def ofDistance (distance : α) (limits : Limits α) : VelocityProfile α :=
  let acceleration := limits.acceleration
  let ramp := Scalar.square limits.velocity / (2.0 * acceleration)
  let (peak, cruiseTime) :=
    if distance < 2.0 * ramp then (Scalar.sqrt (distance * acceleration), 0.0)
    else (limits.velocity, (distance - 2.0 * ramp) / limits.velocity)
  ⟨acceleration, peak, peak / acceleration, cruiseTime, distance⟩

@[specialize] def duration (p : VelocityProfile α) : α := 2.0 * p.rampTime + p.cruiseTime

/-- The motion at time `t`; after the profile the chassis stands at its end. -/
@[specialize] def motionAt (p : VelocityProfile α) (t : α) : Motion α :=
  let a := p.acceleration
  let braking := p.rampTime + p.cruiseTime
  if t < p.rampTime then ⟨0.5 * a * t * t, a * t, a⟩
  else if t < braking then
    ⟨0.5 * a * p.rampTime * p.rampTime + p.peak * (t - p.rampTime), p.peak, 0.0⟩
  else if t < p.duration then
    let remaining := p.duration - t
    ⟨p.distance - 0.5 * a * remaining * remaining, a * remaining, -a⟩
  else ⟨p.distance, 0.0, 0.0⟩

end VelocityProfile

end SkidSteer
