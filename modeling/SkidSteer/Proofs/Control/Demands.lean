import SkidSteer.Proofs.Binary64.Rounding
import SkidSteer.Proofs.Params

namespace SkidSteer

open Binary64

variable {p : Params Float} {speed : Float}

/-- The speed of a motor is a number, if at times an infinite one: the wheel has a circumference, and
the gear turns. -/
theorem isNaN_motorSpeed {diameter gear : Float} (hspeed : speed.isFinite = true)
    (hdiameter : 0.0 < diameter) (hfinite : gear.isFinite = true)
    (hturns : gear < 0.0 ∨ 0.0 < gear) : (motorSpeed speed diameter gear).isNaN = false := by
  have hpi : (Scalar.pi : Float).toModel.unpack =
      .finite .positive 0x1921fb54442d18 (-51) (by decide) := rfl
  have hround : ¬Vanishes (Scalar.pi * diameter).toModel.unpack :=
    not_vanishes_mul hpi (by decide) (not_vanishes (Or.inr hdiameter))
  have hminute : ¬Vanishes (60.0 : Float).toModel.unpack := not_vanishes (Or.inr (by decide))
  have hturn : (speed / (Scalar.pi * diameter)).isNaN = false :=
    not_isNaN_div (isNaN_of_isFinite hspeed) hround (Or.inl hspeed)
  have hminutes : (speed / (Scalar.pi * diameter) * 60.0).isNaN = false :=
    not_isNaN_mul hturn (by decide) hminute
  exact not_isNaN_mul hminutes hfinite (not_vanishes hturns)

/-- The place of a motor speed between the largest one backwards and forwards, before it is
clamped. -/
theorem isNaN_rescale_iff {motor largest : Float} (hmotor : motor.isNaN = false)
    (hlargest : 0.0 < largest) :
    (Scalar.rescale (-largest, largest) (-1.0, 1.0) motor).isNaN = true ↔
      endlessTwice ≤ largest ∧ ¬(motor - -largest).abs < endlessTwice := by
  have htwo : (1.0 - -1.0 : Float) = 2.0 := rfl
  have hone : (-1.0 : Float).isFinite = true := by decide
  have hrange : ¬Vanishes (largest - -largest).toModel.unpack :=
    not_vanishes_sub_neg (Or.inr hlargest)
  have hnumber : largest.isNaN = false := by
    by_contra hnan
    exact (not_lt_of_isNaN (Bool.eq_true_of_not_eq_false hnan)).2 hlargest
  have hsum : (Scalar.rescale (-largest, largest) (-1.0, 1.0) motor).isNaN =
      ((motor - -largest) * 2.0 / (largest - -largest)).isNaN := by
    rw [Scalar.rescale, htwo]
    cases hquotient : ((motor - -largest) * 2.0 / (largest - -largest)).isNaN with
    | false => exact not_isNaN_add hone hquotient
    | true => exact isNaN_add (Or.inr hquotient)
  rw [hsum, ← not_lt hnumber (by decide)]
  by_cases hsmall : largest < endlessTwice
  · -- the largest speed and its double are finite
    have hfinite := (isFinite_sub_neg hlargest).2 hsmall
    have hneg : (-largest).isFinite = true := by
      by_contra hbad
      rw [not_isFinite_sub (Or.inr (Bool.eq_false_of_not_eq_true hbad))] at hfinite
      cases hfinite
    have hnumerator : ((motor - -largest) * 2.0).isNaN = false :=
      not_isNaN_mul (not_isNaN_sub hmotor hneg) (by decide) (not_vanishes (Or.inr (by decide)))
    rw [not_isNaN_div hnumerator hrange (Or.inr hfinite)]
    exact iff_of_false nofun fun h => h.1 hsmall
  · have hendless := Bool.eq_false_of_not_eq_true (mt (isFinite_sub_neg hlargest).1 hsmall)
    rw [and_iff_right hsmall, ← isFinite_mul_two]
    cases hnumerator : ((motor - -largest) * 2.0).isFinite with
    | true =>
      rw [not_isNaN_div (isNaN_of_isFinite hnumerator) hrange (Or.inl hnumerator)]
      exact iff_of_false nofun (not_not_intro rfl)
    | false =>
      rw [isNaN_div_of_not_isFinite hnumerator hendless]
      exact iff_of_true rfl nofun

namespace Converter

/-- From parameters that hold a converter is made, and for a finite speed the demand is a number,
unless it is a share of a largest motor speed with an infinite double, and the motor speed reaches as
far. A share that is a number is between one backwards and forwards. -/
theorem demand_of_validate (hvalid : p.validate = .ok ()) (hspeed : speed.isFinite = true) :
    ∃ c, ofParams p = .ok c ∧
      ((c.demand speed).isNaN = true ↔
        p.unit = .normalised ∧ endlessTwice ≤ p.maxMotorSpeed ∧
          ¬(motorSpeed speed p.geometry.wheelDiameter p.gearRatio - -p.maxMotorSpeed).abs <
            endlessTwice) ∧
      (p.unit = .normalised → (c.demand speed).isNaN = false →
        -1.0 ≤ c.demand speed ∧ c.demand speed ≤ 1.0) := by
  have hsound := Params.validate_eq_ok_iff.1 hvalid
  have hdiameter := (Scalar.isPositive_iff.1 hsound.diameter).2
  have hmotor : (motorSpeed speed p.geometry.wheelDiameter p.gearRatio).isNaN = false :=
    isNaN_motorSpeed hspeed hdiameter hsound.gear_finite hsound.gear_turns
  refine ⟨⟨p.unit, p.geometry.wheelDiameter, p.gearRatio, p.maxMotorSpeed⟩,
    by rw [ofParams, hvalid]; rfl, ?_⟩
  simp only [demand]
  cases hunit : p.unit with
  | linear => exact ⟨iff_of_false (ne_true_of_eq_false (isNaN_of_isFinite hspeed)) nofun, nofun⟩
  | rotational => exact ⟨iff_of_false (ne_true_of_eq_false hmotor) nofun, nofun⟩
  | normalised =>
    have hshare := isNaN_rescale_iff hmotor (hsound.largest hunit)
    have hone : (1.0 : Float).isNaN = false := by decide
    simp only [true_and, forall_const, ← hshare]
    cases hnumber : (Scalar.rescale (-p.maxMotorSpeed, p.maxMotorSpeed) (-1.0, 1.0)
        (motorSpeed speed p.geometry.wheelDiameter p.gearRatio)).isNaN with
    | true =>
      rw [clamp_of_isNaN hnumber, hnumber]
      exact ⟨Iff.rfl, nofun⟩
    | false =>
      have hwithin := clamp_within hnumber hone (by decide)
      rw [isNaN_of_le hwithin.2]
      exact ⟨Iff.rfl, fun _ => hwithin⟩

def normalisedParams (largest : Float) : Params Float :=
  { Params.ofGeometry ⟨1.0, 1.0, 1.0⟩ ⟨0.1016, 0.2667⟩ 1.0 with
    unit := .normalised, maxMotorSpeed := largest }

/-- At one metre per second the motors of such a chassis turn nearly as fast as they can. -/
theorem demand_at_one_metre :
    (normalisedParams 200.0).validate = .ok () ∧ (1.0 : Float).isFinite = true ∧
      ∃ c, ofParams (normalisedParams 200.0) = .ok c ∧ (c.demand 1.0).isNaN = false ∧
        -1.0 ≤ c.demand 1.0 ∧ c.demand 1.0 ≤ 1.0 := by
  have hvalid : (normalisedParams 200.0).validate = .ok () := by rfl
  have hspeed : (1.0 : Float).isFinite = true := by decide
  obtain ⟨c, hc, hnan, hwithin⟩ := demand_of_validate hvalid hspeed
  have hnumber : (c.demand 1.0).isNaN = false := by
    by_contra h
    have hlarge := (hnan.1 (Bool.eq_true_of_not_eq_false h)).2.1
    exact absurd hlarge (by decide)
  exact ⟨hvalid, hspeed, c, hc, hnumber, hwithin rfl hnumber⟩

/-- A largest motor speed that is infinite gets past the checks, and makes a NaN of every demand. -/
theorem demand_of_endless_motors :
    (normalisedParams (1.0 / 0.0)).validate = .ok () ∧ (1.0 : Float).isFinite = true ∧
      ∃ c, ofParams (normalisedParams (1.0 / 0.0)) = .ok c ∧ (c.demand 1.0).isNaN = true :=
  ⟨by rfl, by decide, _, rfl, by decide +kernel⟩

end Converter

end SkidSteer
