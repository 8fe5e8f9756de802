import SkidSteer.Scalar

namespace SkidSteer

inductive Command (α : Type) where
  | drive (left right : α)
  | stop
  deriving DecidableEq

/-- What a motor was asked for. The extremes start at zero. -/
structure MotorRecord where
  last : Float
  largest : Float
  smallest : Float
  demands : Nat
  deriving DecidableEq

namespace MotorRecord

def blank : MotorRecord := ⟨0.0, 0.0, 0.0, 0⟩

/-- A NaN is counted, and is the last demand, but is no extreme. -/
def note (r : MotorRecord) (velocity : Float) : MotorRecord :=
  ⟨velocity, if r.largest < velocity then velocity else r.largest,
    if velocity < r.smallest then velocity else r.smallest, r.demands + 1⟩

end MotorRecord

@[specialize] def saturate {α : Type} [Scalar α] (limit demand : α) : α :=
  Scalar.clamp demand (-limit) limit

@[specialize] def Command.velocities {α : Type} [Scalar α] (limit : α) : Command α → α × α
  | .drive left right => (saturate limit left, saturate limit right)
  | .stop => (0.0, 0.0)

structure Drivetrain where
  /-- The largest speed either way. -/
  limit : Float
  left : MotorRecord
  right : MotorRecord
  deriving DecidableEq

namespace Drivetrain

/-- A chassis limit counts without its sign. -/
def ofLimit (limit : Float) : Drivetrain := ⟨Scalar.abs limit, .blank, .blank⟩

def apply (d : Drivetrain) (c : Command Float) : Drivetrain :=
  let (left, right) := c.velocities d.limit
  { d with left := d.left.note left, right := d.right.note right }

def clear (d : Drivetrain) : Drivetrain := { d with left := .blank, right := .blank }

end Drivetrain

end SkidSteer
