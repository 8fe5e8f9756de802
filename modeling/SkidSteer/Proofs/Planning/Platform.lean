import SkidSteer.Scalar

namespace SkidSteer

/-- The operations on numbers that a platform rounds in its own way. -/
class Platform where
  tan : Float → Float
  atan2 : Float → Float → Float
  powThreeHalves : Float → Float

namespace Platform

/-- The platform that the program runs on. -/
instance native : Platform := ⟨Float.tan, Float.atan2, fun x => Float.pow x 1.5⟩

/-- The numbers of a platform. In all but those three operations they are the same everywhere. -/
@[reducible] def scalar [Platform] : Scalar Float :=
  { (inferInstance : Scalar Float) with
    tan := tan
    atan2 := atan2
    powThreeHalves := powThreeHalves }

theorem scalar_native : @scalar native = (inferInstance : Scalar Float) := rfl

end Platform

end SkidSteer
