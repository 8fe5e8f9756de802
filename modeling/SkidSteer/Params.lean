import SkidSteer.Duration
import SkidSteer.Planning.PlanError
import SkidSteer.Planning.VelocityProfile

namespace SkidSteer

/-- What the chassis takes as a velocity: wheel speed in metres per second, motor speed in
rotations per minute, or motor speed as a share of the largest. -/
inductive CommandUnit where
  | linear
  | rotational
  | normalised
  deriving DecidableEq, Repr

namespace CommandUnit

def name : CommandUnit → String
  | .linear => "Linear"
  | .rotational => "Rotational"
  | .normalised => "Normalised"

def ofName? : String → Option CommandUnit
  | "Linear" => some .linear
  | "Rotational" => some .rotational
  | "Normalised" => some .normalised
  | _ => none

theorem ofName?_name (u : CommandUnit) : ofName? u.name = some u := by
  cases u <;> rfl

end CommandUnit

structure Geometry (α : Type) where
  wheelDiameter : α
  wheelTrack : α
  deriving DecidableEq

structure Params (α : Type) where
  limits : Limits α
  geometry : Geometry α
  /-- Motor rotations per wheel rotation; negative when they turn opposite ways. -/
  gearRatio : α
  unit : CommandUnit
  /-- The motor speed of a normalised demand of one. -/
  maxMotorSpeed : α
  /-- The time between samples, and of the control loop, in seconds. -/
  samplePeriod : α
  storageRoot : String

inductive ConfigError (α : Type) where
  | wheelDiameter (found : α)
  | wheelTrack (found : α)
  | gearRatio (found : α)
  | samplePeriod (found : α)
  | maxMotorSpeed (found : α)
  | limits (found : Limits α)
  deriving DecidableEq

def ConfigError.message : ConfigError Float → String
  | .wheelDiameter found => "Wheel diameter must be positive, found " ++ Decimal.plain found
  | .wheelTrack found => "Wheel track must be positive, found " ++ Decimal.plain found
  | .gearRatio found => "Gear ratio must be finite and non-zero, found " ++ Decimal.plain found
  | .samplePeriod found => "Sample period must be positive, found " ++ Decimal.plain found ++ " s"
  | .maxMotorSpeed found =>
    "Max motor speed must be positive, found " ++ Decimal.plain found ++ " rpm"
  | .limits found => "Kinematic limits must all be positive and finite, found " ++ found.text

namespace Geometry

variable {α : Type} [Scalar α]

def checkDiameter (diameter : α) : Except (ConfigError α) Unit :=
  if Scalar.isPositive diameter then .ok () else .error (.wheelDiameter diameter)

end Geometry

namespace Params

variable {α : Type} [Scalar α]

def defaultStorageRoot : String := "/usd"

/-- Parameters of a chassis, with the defaults for all else. -/
def ofGeometry (limits : Limits α) (geometry : Geometry α) (gearRatio : α) : Params α :=
  ⟨limits, geometry, gearRatio, .rotational, 200.0, 0.01, defaultStorageRoot⟩

/-- A gear ratio turns the motors, either way. -/
def checkGear (ratio : α) : Except (ConfigError α) Unit :=
  if Scalar.isFinite ratio && (decide (ratio < 0.0) || decide ((0.0 : α) < ratio)) then .ok ()
  else .error (.gearRatio ratio)

/-- The first of the parameters that does not describe a chassis. The largest motor speed counts
only for normalised demands, and need not be finite. -/
def validate (p : Params α) : Except (ConfigError α) Unit := do
  Geometry.checkDiameter p.geometry.wheelDiameter
  if !Scalar.isPositive p.geometry.wheelTrack then throw (.wheelTrack p.geometry.wheelTrack)
  checkGear p.gearRatio
  if !Scalar.isPositive p.samplePeriod then throw (.samplePeriod p.samplePeriod)
  if p.unit = .normalised ∧ ¬ (0.0 : α) < p.maxMotorSpeed then
    throw (.maxMotorSpeed p.maxMotorSpeed)
  if !p.limits.isValid then throw (.limits p.limits)

/-- The period of the control loop, if it is a span of time. -/
def loopPeriod? (p : Params Float) : Option Duration := Duration.ofSeconds? p.samplePeriod

end Params

end SkidSteer
