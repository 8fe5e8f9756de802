import SkidSteer.Proofs.Planning.Profile

namespace SkidSteer

section Rise

variable {start t : ℝ}

theorem rise_of_le (h : t ≤ start) : rise start t = 0 := max_eq_left (sub_nonpos.2 h)

theorem rise_of_ge (h : start ≤ t) : rise start t = t - start := max_eq_right (sub_nonneg.2 h)

theorem riseArea_of_le (h : t ≤ start) : riseArea start t = 0 := by
  rw [riseArea, rise_of_le h]
  norm_num

theorem riseArea_of_ge (h : start ≤ t) : riseArea start t = (t - start) ^ 2 / 2 := by
  rw [riseArea, rise_of_ge h]

theorem hasDerivWithinAt_riseArea_before (h : t ≤ start) :
    HasDerivWithinAt (riseArea start) (rise start t) (Set.Iic start) t := by
  rw [rise_of_le h]
  exact (hasDerivWithinAt_const t _ 0).congr (fun _ hx => riseArea_of_le hx) (riseArea_of_le h)

theorem hasDerivWithinAt_riseArea_after (h : start ≤ t) :
    HasDerivWithinAt (riseArea start) (rise start t) (Set.Ici start) t := by
  have hparabola : HasDerivAt (fun x : ℝ => (x - start) ^ 2 / 2) (t - start) t := by
    refine ((((hasDerivAt_id t).sub_const start).pow 2).div_const 2).congr_deriv ?_
    simp
  rw [rise_of_ge h]
  exact hparabola.hasDerivWithinAt.congr (fun _ hx => riseArea_of_ge hx) (riseArea_of_ge h)

/-- A rise is the derivative of its area, at the corner too. -/
theorem hasDerivAt_riseArea (start t : ℝ) : HasDerivAt (riseArea start) (rise start t) t := by
  rcases lt_trichotomy t start with hbefore | rfl | hafter
  · exact (hasDerivWithinAt_riseArea_before hbefore.le).hasDerivAt (Iic_mem_nhds hbefore)
  · have hboth := (hasDerivWithinAt_riseArea_before le_rfl).union
      (hasDerivWithinAt_riseArea_after (le_refl t))
    rwa [Set.Iic_union_Ici, hasDerivWithinAt_univ] at hboth
  · exact (hasDerivWithinAt_riseArea_after hafter.le).hasDerivAt (Ici_mem_nhds hafter)

end Rise

namespace VelocityProfile

variable {limits : Limits ℝ} {p : VelocityProfile ℝ} {t : ℝ}

/-- A sum over the corners of a profile: what each start of an acceleration adds, and each end of
one takes away. -/
noncomputable def corners (p : VelocityProfile ℝ) (f : ℝ → ℝ) : ℝ :=
  p.acceleration * (f 0 - f p.rampTime - f (p.rampTime + p.cruiseTime) + f p.duration)

theorem hasDerivAt_corners_riseArea (p : VelocityProfile ℝ) (t : ℝ) :
    HasDerivAt (fun x => p.corners (riseArea · x)) (p.corners (rise · t)) t :=
  ((((hasDerivAt_riseArea _ t).sub (hasDerivAt_riseArea _ t)).sub
    (hasDerivAt_riseArea _ t)).add (hasDerivAt_riseArea _ t)).const_mul _

/-- A trapezoid whose area is the distance to be driven. -/
structure Covers (limits : Limits ℝ) (distance : ℝ) (p : VelocityProfile ℝ) : Prop
    extends Trapezoid limits p where
  total : p.distance = distance
  area : p.peak * (p.rampTime + p.cruiseTime) = distance

/-- A profile covers the distance that it is made for, whether there is time to cruise or not. -/
theorem covers_ofDistance {distance : ℝ} (hd : 0 < distance) (hv : limits.isValid = true) :
    Covers limits distance (ofDistance distance limits) := by
  refine ⟨trapezoid_ofDistance distance hv, rfl, ?_⟩
  obtain ⟨hvelocity, hacceleration, -⟩ := (Limits.isValid_real limits).1 hv
  rw [ofDistance_real]
  split_ifs
  · rw [add_zero, ← mul_div_assoc, Real.mul_self_sqrt (mul_pos hd hacceleration).le,
      mul_div_cancel_right₀ _ hacceleration.ne']
  · field_simp
    ring

namespace Covers

variable {distance : ℝ}

theorem duration_pos (h : Covers limits distance p) (hd : 0 < distance) : 0 < p.duration := by
  have hmoves : 0 < p.rampTime + p.cruiseTime := by
    refine pos_of_mul_pos_right ?_ h.peak
    rwa [h.area]
  rw [duration_real]
  linarith [h.rampTime_nonneg]

/-- After its end a profile stands. -/
theorem motionAt_of_ge (h : Covers limits distance p) (ht : p.duration ≤ t) :
    p.motionAt t = ⟨distance, 0, 0⟩ := by
  have hramp := h.rampTime_nonneg
  have hcruise := h.cruise
  have hend := p.duration_real
  rw [motionAt_real, if_neg (by linarith), if_neg (by linarith), if_neg (not_lt.2 ht), h.total]

theorem motionAt_eq_corners (h : Covers limits distance p) (ht : 0 ≤ t) :
    (p.motionAt t).distance = p.corners (riseArea · t) ∧
      (p.motionAt t).velocity = p.corners (rise · t) := by
  have hramp := h.rampTime_nonneg
  have hcruise := h.cruise
  have hend := p.duration_real
  rw [motionAt_real, corners, corners, h.total, ← h.area, ← h.ramp, riseArea_of_ge ht,
    rise_of_ge ht]
  split_ifs with hspeeding hcruising hslowing
  · have hlater : t ≤ p.rampTime + p.cruiseTime := by linarith
    have hlast : t ≤ p.duration := by linarith
    rw [riseArea_of_le hspeeding.le, rise_of_le hspeeding.le, riseArea_of_le hlater,
      rise_of_le hlater, riseArea_of_le hlast, rise_of_le hlast]
    constructor <;> ring
  · have hlast : t ≤ p.duration := by linarith
    have hfirst : p.rampTime ≤ t := not_lt.1 hspeeding
    rw [riseArea_of_ge hfirst, rise_of_ge hfirst, riseArea_of_le hcruising.le,
      rise_of_le hcruising.le, riseArea_of_le hlast, rise_of_le hlast]
    constructor <;> ring
  · have hfirst : p.rampTime ≤ t := not_lt.1 hspeeding
    have hlater : p.rampTime + p.cruiseTime ≤ t := not_lt.1 hcruising
    rw [riseArea_of_ge hfirst, rise_of_ge hfirst, riseArea_of_ge hlater, rise_of_ge hlater,
      riseArea_of_le hslowing.le, rise_of_le hslowing.le, hend]
    constructor <;> ring
  · have hfirst : p.rampTime ≤ t := not_lt.1 hspeeding
    have hlater : p.rampTime + p.cruiseTime ≤ t := not_lt.1 hcruising
    have hlast : p.duration ≤ t := not_lt.1 hslowing
    rw [riseArea_of_ge hfirst, rise_of_ge hfirst, riseArea_of_ge hlater, rise_of_ge hlater,
      riseArea_of_ge hlast, rise_of_ge hlast, hend]
    constructor <;> ring

end Covers

end VelocityProfile

end SkidSteer
