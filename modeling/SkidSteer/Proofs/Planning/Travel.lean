import SkidSteer.Proofs.Planning.Corners

namespace SkidSteer

namespace VelocityProfile

variable {limits : Limits ℝ} {distance : ℝ} {p : VelocityProfile ℝ} {t u : ℝ}

/-- A motion from rest over a distance and to rest again, within the limits at every time, and
between any two. -/
structure Admissible (limits : Limits ℝ) (distance : ℝ) (p : VelocityProfile ℝ) : Prop where
  start : (p.motionAt 0).distance = 0 ∧ (p.motionAt 0).velocity = 0
  finish : ∀ t, p.duration ≤ t → p.motionAt t = ⟨distance, 0, 0⟩
  velocity : ∀ t, 0 ≤ t → 0 ≤ (p.motionAt t).velocity ∧ (p.motionAt t).velocity ≤ limits.velocity
  acceleration : ∀ t, 0 ≤ t → |(p.motionAt t).acceleration| ≤ limits.acceleration
  travel : ∀ t u, 0 ≤ t → t ≤ u →
    0 ≤ (p.motionAt u).distance - (p.motionAt t).distance ∧
      (p.motionAt u).distance - (p.motionAt t).distance ≤ limits.velocity * (u - t)
  change : ∀ t u, 0 ≤ t → t ≤ u →
    |(p.motionAt u).velocity - (p.motionAt t).velocity| ≤ limits.acceleration * (u - t)
  drift : ∀ t u, 0 ≤ t → t ≤ u →
    |(p.motionAt u).distance - (p.motionAt t).distance - (p.motionAt t).velocity * (u - t)| ≤
      limits.acceleration * (u - t) ^ 2 / 2

/-- What grows more slowly grows less. -/
theorem sub_le_sub_of_hasDerivAt {f g f' g' : ℝ → ℝ} (hf : ∀ x, HasDerivAt f (f' x) x)
    (hg : ∀ x, HasDerivAt g (g' x) x) (htu : t ≤ u)
    (hle : ∀ x, t ≤ x → x ≤ u → f' x ≤ g' x) : f u - f t ≤ g u - g t := by
  have hdiff : ∀ x, HasDerivAt (g - f) (g' x - f' x) x := fun x => (hg x).sub (hf x)
  have hmono : MonotoneOn (g - f) (Set.Icc t u) := by
    refine monotoneOn_of_hasDerivWithinAt_nonneg (convex_Icc t u)
      (fun x _ => (hdiff x).continuousAt.continuousWithinAt)
      (fun x _ => (hdiff x).hasDerivWithinAt) fun x hx => ?_
    obtain ⟨hfrom, hto⟩ := interior_subset hx
    exact sub_nonneg.2 (hle x hfrom hto)
  have hends := hmono (Set.left_mem_Icc.2 htu) (Set.right_mem_Icc.2 htu) htu
  simp only [Pi.sub_apply] at hends
  linarith

theorem Trapezoid.abs_acceleration_le (h : Trapezoid limits p) (t : ℝ) :
    |(p.motionAt t).acceleration| ≤ limits.acceleration := by
  have hpositive := h.positive
  rw [motionAt_real, ← h.acceleration]
  split_ifs <;> simp [abs_of_pos hpositive, hpositive.le]

theorem Trapezoid.change (h : Trapezoid limits p) (ht : 0 ≤ t) (htu : t ≤ u) :
    |(p.motionAt u).velocity - (p.motionAt t).velocity| ≤ limits.acceleration * (u - t) := by
  have hchange := h.abs_velocity_sub_le ht (ht.trans htu)
  rwa [abs_of_nonneg (sub_nonneg.2 htu)] at hchange

namespace Covers

/-- Between two times the chassis drives no less than what is nowhere faster, and no more than what
is nowhere slower. -/
theorem distance_sub_mem (h : Covers limits distance p) (ht : 0 ≤ t) (htu : t ≤ u)
    {f f' g g' : ℝ → ℝ} (hf : ∀ x, HasDerivAt f (f' x) x) (hg : ∀ x, HasDerivAt g (g' x) x)
    (hle : ∀ x, t ≤ x → x ≤ u → f' x ≤ (p.motionAt x).velocity ∧ (p.motionAt x).velocity ≤ g' x) :
    f u - f t ≤ (p.motionAt u).distance - (p.motionAt t).distance ∧
      (p.motionAt u).distance - (p.motionAt t).distance ≤ g u - g t := by
  have hspeed : ∀ x, t ≤ x → x ≤ u → f' x ≤ p.corners (rise · x) ∧ p.corners (rise · x) ≤ g' x := by
    intro x htx hxu
    rw [← (h.motionAt_eq_corners (ht.trans htx)).2]
    exact hle x htx hxu
  rw [(h.motionAt_eq_corners ht).1, (h.motionAt_eq_corners (ht.trans htu)).1]
  have hdriven := hasDerivAt_corners_riseArea p
  exact ⟨sub_le_sub_of_hasDerivAt hf hdriven htu fun x htx hxu => (hspeed x htx hxu).1,
    sub_le_sub_of_hasDerivAt hdriven hg htu fun x htx hxu => (hspeed x htx hxu).2⟩

theorem travel (h : Covers limits distance p) (ht : 0 ≤ t) (htu : t ≤ u) :
    0 ≤ (p.motionAt u).distance - (p.motionAt t).distance ∧
      (p.motionAt u).distance - (p.motionAt t).distance ≤ limits.velocity * (u - t) := by
  have hends := h.distance_sub_mem ht htu (fun x => hasDerivAt_const x 0)
    (fun x => ((hasDerivAt_id x).const_mul limits.velocity).congr_deriv (mul_one _))
    fun x htx _ => ⟨h.velocity_nonneg (ht.trans htx), h.velocity_le (ht.trans htx)⟩
  rwa [sub_self, id, id, ← mul_sub] at hends

/-- The chassis is where its earlier speed would have taken it, but for what the acceleration limit
allows. -/
theorem drift (h : Covers limits distance p) (ht : 0 ≤ t) (htu : t ≤ u) :
    |(p.motionAt u).distance - (p.motionAt t).distance - (p.motionAt t).velocity * (u - t)| ≤
      limits.acceleration * (u - t) ^ 2 / 2 := by
  -- What changes its speed at a steady rate from `t` on.
  have hsteady : ∀ rate x, HasDerivAt
      (fun y => (p.motionAt t).velocity * y + rate * riseArea t y)
      ((p.motionAt t).velocity + rate * rise t x) x := fun rate x =>
    ((hasDerivAt_id x).const_mul _ |>.congr_deriv (mul_one _)).add
      ((hasDerivAt_riseArea t x).const_mul rate)
  obtain ⟨hlow, hhigh⟩ := h.distance_sub_mem ht htu (hsteady (-limits.acceleration))
    (hsteady limits.acceleration) fun x htx _ => by
      obtain ⟨hslower, hfaster⟩ := abs_le.1 (h.change ht htx)
      rw [rise_of_ge htx]
      exact ⟨by linarith, by linarith⟩
  rw [riseArea_of_ge htu, riseArea_of_le le_rfl] at hhigh hlow
  exact abs_le.2 ⟨by linarith, by linarith⟩

end Covers

/-- A profile is admissible wherever its corners are, whether there is time to cruise or not. -/
theorem admissible_ofDistance (hd : 0 < distance) (hv : limits.isValid = true) :
    Admissible limits distance (ofDistance distance limits) := by
  have h := covers_ofDistance hd hv
  have hstart := motionAt_zero hd hv
  constructor
  case start => rw [hstart]; exact ⟨rfl, rfl⟩
  case finish => exact fun t ht => h.motionAt_of_ge ht
  case velocity => exact fun t ht => ⟨h.velocity_nonneg ht, h.velocity_le ht⟩
  case acceleration => exact fun t _ => h.abs_acceleration_le t
  case travel => exact fun t u ht htu => h.travel ht htu
  case change => exact fun t u ht htu => h.change ht htu
  case drift => exact fun t u ht htu => h.drift ht htu

/-- On an eighth of a metre the chassis does not get to the limit, on a metre it cruises there. -/
theorem short_and_long_are_admissible :
    let limits : Limits ℝ := ⟨1, 2, 10⟩
    let short := ofDistance (1 / 8) limits
    let long := ofDistance 1 limits
    limits.isValid = true ∧
      (0 < (1 / 8 : ℝ) ∧ short.peak < limits.velocity ∧ Admissible limits (1 / 8) short) ∧
      0 < (1 : ℝ) ∧ 0 < long.cruiseTime ∧ Admissible limits 1 long := by
  intro limits short long
  have hv : limits.isValid = true := (Limits.isValid_real limits).2 (by norm_num [limits])
  refine ⟨hv, ⟨by norm_num, ?_, admissible_ofDistance (by norm_num) hv⟩, one_pos, ?_,
    admissible_ofDistance one_pos hv⟩
  · unfold short
    rw [ofDistance_real, if_pos (by norm_num [limits])]
    exact (Real.sqrt_lt' one_pos).2 (by norm_num [limits])
  · unfold long
    rw [ofDistance_real, if_neg (by norm_num [limits])]
    norm_num [limits]

end VelocityProfile

end SkidSteer
