import SkidSteer.Proofs.Planning.Reals

namespace SkidSteer

namespace VelocityProfile

variable {limits : Limits ℝ} {p : VelocityProfile ℝ} {t u : ℝ}

/-- A profile that speeds up to a peak, cruises there, and slows down as it sped up. -/
structure Trapezoid (limits : Limits ℝ) (p : VelocityProfile ℝ) : Prop where
  acceleration : p.acceleration = limits.acceleration
  positive : 0 < p.acceleration
  ramp : p.acceleration * p.rampTime = p.peak
  peak : 0 ≤ p.peak
  limit : p.peak ≤ limits.velocity
  cruise : 0 ≤ p.cruiseTime

theorem trapezoid_ofDistance (distance : ℝ) (hv : limits.isValid = true) :
    Trapezoid limits (ofDistance distance limits) := by
  obtain ⟨hvelocity, hacceleration, -⟩ := (Limits.isValid_real limits).1 hv
  rw [ofDistance_real]
  split_ifs with hshort
  · refine ⟨rfl, hacceleration, mul_div_cancel₀ _ hacceleration.ne', Real.sqrt_nonneg _, ?_, le_rfl⟩
    -- Speeding up and slowing down at once, the chassis does not get to the limit.
    have htop : 2 * (limits.velocity ^ 2 / (2 * limits.acceleration)) * limits.acceleration =
        limits.velocity ^ 2 := by
      field_simp
    refine Real.sqrt_le_iff.2 ⟨hvelocity.le, ?_⟩
    rw [← htop]
    exact mul_le_mul_of_nonneg_right hshort.le hacceleration.le
  · refine ⟨rfl, hacceleration, mul_div_cancel₀ _ hacceleration.ne', hvelocity.le, le_rfl, ?_⟩
    exact div_nonneg (sub_nonneg.2 (not_lt.1 hshort)) hvelocity.le

namespace Trapezoid

theorem rampTime_nonneg (h : Trapezoid limits p) : 0 ≤ p.rampTime := by
  have hpeak := h.peak
  rw [← h.ramp] at hpeak
  exact nonneg_of_mul_nonneg_right hpeak h.positive

/-- The speed is the least of what speeding up allows, the peak, and what slowing down allows. -/
theorem velocity_eq (h : Trapezoid limits p) (ht : 0 ≤ t) :
    (p.motionAt t).velocity =
      max 0 (min p.peak (min (p.acceleration * t) (p.acceleration * (p.duration - t)))) := by
  have hmono : ∀ {x y : ℝ}, x ≤ y → p.acceleration * x ≤ p.acceleration * y :=
    fun hle => mul_le_mul_of_nonneg_left hle h.positive.le
  have hcruise := h.cruise
  have hend := p.duration_real
  rw [motionAt_real, ← h.ramp]
  split_ifs with hramp hbraking hstop
  · have hfirst : p.acceleration * t ≤ p.acceleration * p.rampTime := hmono hramp.le
    have hsecond : p.acceleration * t ≤ p.acceleration * (p.duration - t) := hmono (by linarith)
    rw [min_eq_left hsecond, min_eq_right hfirst, max_eq_right (mul_nonneg h.positive.le ht)]
  · have hfirst : p.acceleration * p.rampTime ≤ p.acceleration * t := hmono (not_lt.1 hramp)
    have hsecond : p.acceleration * p.rampTime ≤ p.acceleration * (p.duration - t) :=
      hmono (by linarith)
    rw [min_eq_left (le_min hfirst hsecond), max_eq_right (h.ramp ▸ h.peak)]
  · have hfirst : p.acceleration * (p.duration - t) ≤ p.acceleration * t :=
      hmono (by linarith [not_lt.1 hbraking, h.rampTime_nonneg])
    have hsecond : p.acceleration * (p.duration - t) ≤ p.acceleration * p.rampTime :=
      hmono (by linarith [not_lt.1 hbraking])
    rw [min_eq_right hfirst, min_eq_right hsecond,
      max_eq_right (mul_nonneg h.positive.le (sub_nonneg.2 hstop.le))]
  · have hover : p.acceleration * (p.duration - t) ≤ 0 :=
      mul_nonpos_of_nonneg_of_nonpos h.positive.le (sub_nonpos.2 (not_lt.1 hstop))
    rw [max_eq_left ((min_le_right _ _).trans ((min_le_right _ _).trans hover))]

theorem velocity_nonneg (h : Trapezoid limits p) (ht : 0 ≤ t) : 0 ≤ (p.motionAt t).velocity := by
  rw [h.velocity_eq ht]
  exact le_max_left _ _

theorem velocity_le (h : Trapezoid limits p) (ht : 0 ≤ t) :
    (p.motionAt t).velocity ≤ limits.velocity := by
  rw [h.velocity_eq ht]
  exact max_le (h.peak.trans h.limit) ((min_le_left _ _).trans h.limit)

/-- The speed changes no faster than the acceleration limit allows. -/
theorem abs_velocity_sub_le (h : Trapezoid limits p) (ht : 0 ≤ t) (hu : 0 ≤ u) :
    |(p.motionAt u).velocity - (p.motionAt t).velocity| ≤ limits.acceleration * |u - t| := by
  have hfirst : |p.acceleration * u - p.acceleration * t| = limits.acceleration * |u - t| := by
    rw [← mul_sub, abs_mul, abs_of_pos h.positive, h.acceleration]
  have hsecond : |p.acceleration * (p.duration - u) - p.acceleration * (p.duration - t)| =
      limits.acceleration * |u - t| := by
    rw [← mul_sub, abs_mul, abs_of_pos h.positive, h.acceleration, sub_sub_sub_cancel_left,
      abs_sub_comm]
  rw [h.velocity_eq ht, h.velocity_eq hu, max_comm, max_comm 0]
  calc
    _ ≤ |min p.peak (min (p.acceleration * u) (p.acceleration * (p.duration - u))) -
          min p.peak (min (p.acceleration * t) (p.acceleration * (p.duration - t)))| :=
        abs_max_sub_max_le_abs _ _ _
    _ ≤ |min (p.acceleration * u) (p.acceleration * (p.duration - u)) -
          min (p.acceleration * t) (p.acceleration * (p.duration - t))| := by
        refine (abs_min_sub_min_le_max _ _ _ _).trans (max_le ?_ le_rfl)
        rw [sub_self, abs_zero]
        exact abs_nonneg _
    _ ≤ limits.acceleration * |u - t| := by
        exact (abs_min_sub_min_le_max _ _ _ _).trans (max_le hfirst.le hsecond.le)

end Trapezoid

/-- At the start of a path that has a length the chassis speeds up from rest. -/
theorem motionAt_zero {distance : ℝ} (hd : 0 < distance) (hv : limits.isValid = true) :
    (ofDistance distance limits).motionAt 0 = ⟨0, 0, limits.acceleration⟩ := by
  obtain ⟨hvelocity, hacceleration, -⟩ := (Limits.isValid_real limits).1 hv
  have hramp : 0 < (ofDistance distance limits).rampTime := by
    rw [ofDistance_real]
    split_ifs
    · exact div_pos (Real.sqrt_pos.2 (mul_pos hd hacceleration)) hacceleration
    · exact div_pos hvelocity hacceleration
  rw [motionAt_real, if_pos hramp, (trapezoid_ofDistance distance hv).acceleration]
  simp

end VelocityProfile

end SkidSteer
