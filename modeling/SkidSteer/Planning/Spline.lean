import SkidSteer.Planning.PlanError
import SkidSteer.Scalar

namespace SkidSteer

/-- The cubic `a * x ^ 3 + b * x ^ 2 + c * x` over a chord along the first axis. -/
structure Spline (α : Type) where
  a : α
  b : α
  c : α
  chord : α
  deriving DecidableEq

namespace Spline

variable {α : Type} [Scalar α]

/-- Waypoints closer than this are at the same place. -/
def shortestChord : α := 1e-6

/-- The largest angle between a heading and the chord: a little less than a quarter turn. -/
@[specialize] def largestHeadingError : α := Scalar.pi / 2.0 - 1e-3

/-- The cubic that starts and ends on a chord with the given slopes. -/
@[specialize] def ofSlopes (start finish chord : α) : Spline α :=
  ⟨(start + finish) / (chord * chord), -(2.0 * start + finish) / chord, start, chord⟩

/-- The curve between two waypoints, the first of which is numbered `segment`. Of its two headings
the first is looked at first. -/
@[specialize] def fit (segment : Nat) (start finish : Waypoint α) :
    Except (PlanError α) (Spline α) :=
  let dx := finish.x - start.x
  let dy := finish.y - start.y
  let chord := Scalar.sqrt (dx * dx + dy * dy)
  if chord < shortestChord then .error (.coincidentWaypoints segment)
  else
    let direction := Scalar.atan2 dy dx
    let leaving := Scalar.wrapAngle (start.heading - direction)
    let arriving := Scalar.wrapAngle (finish.heading - direction)
    if largestHeadingError < Scalar.abs leaving then .error (.infeasibleSegment segment leaving)
    else if largestHeadingError < Scalar.abs arriving then
      .error (.infeasibleSegment segment arriving)
    else .ok (ofSlopes (Scalar.tan leaving) (Scalar.tan arriving) chord)

/-- One curve for each pair of neighbours, or the first fault in order. -/
@[specialize] def fitFrom (segment : Nat) :
    List (Waypoint α) → Except (PlanError α) (List (Spline α))
  | start :: finish :: rest =>
    match fit segment start finish with
    | .error e => .error e
    | .ok spline =>
      match fitFrom (segment + 1) (finish :: rest) with
      | .error e => .error e
      | .ok splines => .ok (spline :: splines)
  | _ => .ok []

def fitAll (waypoints : List (Waypoint α)) : Except (PlanError α) (List (Spline α)) :=
  fitFrom 0 waypoints

@[specialize] def height (s : Spline α) (x : α) : α :=
  s.a * x * x * x + s.b * x * x + s.c * x

@[specialize] def slope (s : Spline α) (x : α) : α :=
  3.0 * s.a * x * x + 2.0 * s.b * x + s.c

/-- The signed curvature, positive where the curve turns left. -/
@[specialize] def curvature (s : Spline α) (x : α) : α :=
  let slope := s.slope x
  (6.0 * s.a * x + 2.0 * s.b) / Scalar.powThreeHalves (1.0 + slope * slope)

end Spline

end SkidSteer
