import SkidSteer.Demand

namespace SkidSteer

namespace Params

variable {α : Type} [Scalar α] {p : Params α}

/-- What the checks see to. Each looks at one parameter only. -/
structure Sound (p : Params α) : Prop where
  diameter : Scalar.isPositive p.geometry.wheelDiameter = true
  track : Scalar.isPositive p.geometry.wheelTrack = true
  gear_finite : Scalar.isFinite p.gearRatio = true
  gear_turns : p.gearRatio < 0.0 ∨ 0.0 < p.gearRatio
  period : Scalar.isPositive p.samplePeriod = true
  largest : p.unit = .normalised → 0.0 < p.maxMotorSpeed
  limits : p.limits.isValid = true

section Checks

variable {ε : Type} {e : ε} {c : Prop} [Decidable c] {next skipped : Except ε Unit}

theorem check_bind_eq_ok_iff :
    ((if c then .ok () else .error e) >>= fun _ => next) = .ok () ↔ c ∧ next = .ok () := by
  by_cases h : c
  · rw [if_pos h, and_iff_right h]
    rfl
  · rw [if_neg h]
    exact iff_of_false nofun fun hc => h hc.1

theorem throw_or_eq_ok_iff :
    (if c then throw e >>= fun (_ : Unit) => skipped else next) = .ok () ↔ ¬c ∧ next = .ok () := by
  by_cases h : c
  · rw [if_pos h]
    exact iff_of_false nofun fun hc => hc.1 h
  · rw [if_neg h, and_iff_right h]

theorem throw_or_pure_eq_ok_iff :
    (if c then throw e else pure () : Except ε Unit) = .ok () ↔ ¬c := by
  by_cases h : c
  · rw [if_pos h]
    exact iff_of_false nofun (not_not_intro h)
  · rw [if_neg h]
    exact iff_of_true rfl h

end Checks

theorem validate_eq_ok_iff : p.validate = .ok () ↔ p.Sound := by
  simp only [validate, Geometry.checkDiameter, checkGear, check_bind_eq_ok_iff, throw_or_eq_ok_iff,
    throw_or_pure_eq_ok_iff, Bool.not_eq_true', Bool.not_eq_false, Bool.and_eq_true,
    Bool.or_eq_true, decide_eq_true_eq, not_and, Decidable.not_not]
  constructor
  · rintro ⟨hdiameter, htrack, ⟨hfinite, hturns⟩, hperiod, hlargest, hlimits⟩
    exact ⟨hdiameter, htrack, hfinite, hturns, hperiod, hlargest, hlimits⟩
  · intro h
    exact ⟨h.diameter, h.track, ⟨h.gear_finite, h.gear_turns⟩, h.period, h.largest, h.limits⟩

end Params

end SkidSteer
