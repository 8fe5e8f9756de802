import SkidSteer.Params

namespace SkidSteer

/-- Motor rotations per minute of a wheel at `speed` metres per second. -/
@[specialize] def motorSpeed {α : Type} [Scalar α] (speed wheelDiameter gearRatio : α) : α :=
  speed / (Scalar.pi * wheelDiameter) * 60.0 * gearRatio

/-- As `motorSpeed`, for a wheel and a gear that turn at all. -/
def motorSpeed? {α : Type} [Scalar α] (speed wheelDiameter gearRatio : α) :
    Except (ConfigError α) α := do
  Geometry.checkDiameter wheelDiameter
  Params.checkGear gearRatio
  return motorSpeed speed wheelDiameter gearRatio

structure RunOptions where
  /-- Backwards. -/
  reverse : Bool
  /-- With the wheels exchanged, so that turns go the other way. -/
  mirrored : Bool
  deriving DecidableEq, Repr, Inhabited

namespace RunOptions

def forward : RunOptions := ⟨false, false⟩

def text (o : RunOptions) : String :=
  "TargetOptions \x7b reverse: " ++ toString o.reverse ++ ", mirrored: " ++ toString o.mirrored
    ++ " \x7d"

end RunOptions

def Sample.oriented {α : Type} [Neg α] (s : Sample α) (o : RunOptions) : Sample α :=
  let directed := if o.reverse then s.reversed else s
  if o.mirrored then directed.swapped else directed

/-- Turns wheel speeds into demands. It is made from parameters that hold. -/
structure Converter (α : Type) where
  unit : CommandUnit
  wheelDiameter : α
  gearRatio : α
  maxMotorSpeed : α

namespace Converter

variable {α : Type} [Scalar α]

def ofParams (p : Params α) : Except (ConfigError α) (Converter α) := do
  p.validate
  return ⟨p.unit, p.geometry.wheelDiameter, p.gearRatio, p.maxMotorSpeed⟩

@[specialize] def demand (c : Converter α) (speed : α) : α :=
  match c.unit with
  | .linear => speed
  | .rotational => motorSpeed speed c.wheelDiameter c.gearRatio
  | .normalised =>
    Scalar.clamp
      (Scalar.rescale (-c.maxMotorSpeed, c.maxMotorSpeed) (-1.0, 1.0)
        (motorSpeed speed c.wheelDiameter c.gearRatio))
      (-1.0) 1.0

/-- The demands of the left and the right motor for one sample of a run. -/
@[specialize] def demands (c : Converter α) (o : RunOptions) (s : Sample α) : α × α :=
  let oriented := s.oriented o
  (c.demand oriented.left.velocity, c.demand oriented.right.velocity)

end Converter

end SkidSteer
