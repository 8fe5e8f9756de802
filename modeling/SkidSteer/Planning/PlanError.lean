import SkidSteer.Decimal.Text
import SkidSteer.Trajectory

namespace SkidSteer

def Limits.text (l : Limits Float) : String :=
  "KinematicLimits \x7b max_vel_ms: " ++ Decimal.detailed l.velocity ++ ", max_accel_mss: "
    ++ Decimal.detailed l.acceleration ++ ", max_jerk_msss: " ++ Decimal.detailed l.jerk ++ " \x7d"

/-- Why no trajectory is planned. A segment is counted from zero. -/
inductive PlanError (α : Type) where
  | invalidLimits (limits : Limits α)
  | coincidentWaypoints (segment : Nat)
  | infeasibleSegment (segment : Nat) (headingError : α)
  | nonFinite
  | invalidSamplePeriod (period : α)
  | tooManySamples (count : α) (most : Nat)
  deriving DecidableEq

def PlanError.message : PlanError Float → String
  | .invalidLimits limits =>
    "Kinematic limits must all be positive and finite, found " ++ limits.text
  | .coincidentWaypoints segment =>
    "Waypoint " ++ toString segment ++ " is at the same position as the waypoint following it"
  | .infeasibleSegment segment headingError =>
    "Segment " ++ toString segment ++ " is impossible for a skid steer chassis, a heading is "
      ++ Decimal.fixed 3 headingError ++ " rad from the direction of travel"
  | .nonFinite => "The generated trajectory contains non-finite values"
  | .invalidSamplePeriod period =>
    "Sample period must be positive and finite, found " ++ Decimal.plain period
  | .tooManySamples count most =>
    "The trajectory would need " ++ Decimal.plain count ++ " samples, more than the limit of "
      ++ toString most

end SkidSteer
