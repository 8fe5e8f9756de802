import SkidSteer.Proofs.Planning.Faults

namespace SkidSteer

open Waypoint (Neighbours)

noncomputable def Waypoint.direction (w : Waypoint ℝ) : ℂ := Complex.exp (w.heading * Complex.I)

namespace Spline

theorem height_real (s : Spline ℝ) (x : ℝ) :
    s.height x = s.a * x ^ 3 + (s.b * x ^ 2 + s.c * x) := by
  rw [height]
  ring

theorem hasDerivAt_height (s : Spline ℝ) (x : ℝ) : HasDerivAt s.height (s.slope x) x := by
  have hheight : s.height = fun x => s.a * x ^ 3 + (s.b * x ^ 2 + s.c * x) :=
    funext s.height_real
  have hcubic := (hasDerivAt_pow 3 x).const_mul s.a
  have hsquare := (hasDerivAt_pow 2 x).const_mul s.b
  have hline := (hasDerivAt_id x).const_mul s.c
  rw [hheight, slope_real]
  refine (hcubic.add (hsquare.add hline)).congr_deriv ?_
  norm_num
  ring

theorem hasDerivAt_slope (s : Spline ℝ) (x : ℝ) :
    HasDerivAt s.slope (6 * s.a * x + 2 * s.b) x := by
  have hslope : s.slope = fun x => 3 * s.a * x ^ 2 + (2 * s.b * x + s.c) := by
    funext x
    rw [slope_real]
    ring
  have hsquare := (hasDerivAt_pow 2 x).const_mul (3 * s.a)
  have hline := ((hasDerivAt_id x).const_mul (2 * s.b)).add_const s.c
  rw [hslope]
  refine (hsquare.add hline).congr_deriv ?_
  norm_num
  ring

theorem slope_ofSlopes_zero (leaving arriving chord : ℝ) :
    (ofSlopes leaving arriving chord).slope 0 = leaving := by
  rw [slope_real, ofSlopes_real]
  simp

theorem slope_ofSlopes_chord (leaving arriving : ℝ) {chord : ℝ} (h : chord ≠ 0) :
    (ofSlopes leaving arriving chord).slope chord = arriving := by
  rw [slope_real, ofSlopes_real]
  simp only
  field_simp
  ring

theorem height_ofSlopes_zero (leaving arriving chord : ℝ) :
    (ofSlopes leaving arriving chord).height 0 = 0 := by
  rw [height_real]
  simp

theorem height_ofSlopes_chord (leaving arriving chord : ℝ) :
    (ofSlopes leaving arriving chord).height chord = 0 := by
  rw [height_real, ofSlopes_real]
  simp only
  field_simp
  ring

variable {start finish : Waypoint ℝ} {spline : Spline ℝ}

noncomputable def trace (s : Spline ℝ) (start finish : Waypoint ℝ) (x : ℝ) : ℂ :=
  start.place + (x + s.height x * Complex.I) * Complex.exp ((span start finish).arg * Complex.I)

noncomputable def velocity (s : Spline ℝ) (start finish : Waypoint ℝ) (x : ℝ) : ℂ :=
  (1 + s.slope x * Complex.I) * Complex.exp ((span start finish).arg * Complex.I)

/-- The curvature of a motion in the plane, positive where it turns left. -/
noncomputable def signedCurvature (velocity acceleration : ℂ) : ℝ :=
  (starRingEnd ℂ velocity * acceleration).im / ‖velocity‖ ^ 3

theorem hasDerivAt_trace (s : Spline ℝ) (start finish : Waypoint ℝ) (x : ℝ) :
    HasDerivAt (s.trace start finish) (s.velocity start finish x) x := by
  have hheight := (s.hasDerivAt_height x).ofReal_comp.mul_const Complex.I
  have halong := (hasDerivAt_id x).ofReal_comp.add hheight
  refine ((halong.mul_const _).const_add start.place).congr_deriv ?_
  rw [velocity, Complex.ofReal_one]

theorem hasDerivAt_velocity (s : Spline ℝ) (start finish : Waypoint ℝ) (x : ℝ) :
    HasDerivAt (s.velocity start finish) ((6 * s.a * x + 2 * s.b : ℝ) * Complex.I *
      Complex.exp ((span start finish).arg * Complex.I)) x := by
  have hslope := (s.hasDerivAt_slope x).ofReal_comp.mul_const Complex.I
  exact (hslope.const_add 1).mul_const _

/-- A rotation of the plane does not change a curvature. -/
theorem signedCurvature_mul (velocity acceleration : ℂ) {turn : ℂ} (h : ‖turn‖ = 1) :
    signedCurvature (velocity * turn) (acceleration * turn) =
      signedCurvature velocity acceleration := by
  have hturn : starRingEnd ℂ (velocity * turn) * (acceleration * turn) =
      starRingEnd ℂ velocity * acceleration := by
    calc starRingEnd ℂ (velocity * turn) * (acceleration * turn)
        = starRingEnd ℂ velocity * acceleration * (turn * starRingEnd ℂ turn) := by
          rw [map_mul]
          ring
      _ = starRingEnd ℂ velocity * acceleration := by
          rw [Complex.mul_conj, Complex.normSq_eq_norm_sq, h]
          simp
  rw [signedCurvature, hturn, norm_mul, h, mul_one, signedCurvature]

/-- The curvature that planning computes is that of the path. -/
theorem curvature_eq_signedCurvature (s : Spline ℝ) (start finish : Waypoint ℝ) (x : ℝ) :
    s.curvature x =
      signedCurvature (deriv (s.trace start finish) x) (deriv (deriv (s.trace start finish)) x) := by
  have hderiv : deriv (s.trace start finish) = s.velocity start finish :=
    funext fun x => (s.hasDerivAt_trace start finish x).deriv
  have hcube : ‖(1 + s.slope x * Complex.I : ℂ)‖ ^ 3 =
      (1 + s.slope x * s.slope x) ^ (3 / 2 : ℝ) := by
    have hnorm : ‖(1 + s.slope x * Complex.I : ℂ)‖ = Real.sqrt (1 + s.slope x * s.slope x) := by
      rw [Complex.norm_def, Complex.normSq_apply]
      simp
    have hpos : 0 ≤ 1 + s.slope x * s.slope x :=
      add_nonneg zero_le_one (mul_self_nonneg _)
    rw [hnorm, Real.sqrt_eq_rpow, ← Real.rpow_natCast, ← Real.rpow_mul hpos]
    norm_num
  rw [hderiv, (s.hasDerivAt_velocity start finish x).deriv, velocity,
    signedCurvature_mul _ _ (Complex.norm_exp_ofReal_mul_I _), signedCurvature, hcube,
    curvature_real]
  simp

/-- The end of the chord is the next waypoint. -/
theorem span_eq : (‖span start finish‖ : ℂ) * Complex.exp ((span start finish).arg * Complex.I) =
    finish.place - start.place :=
  Complex.norm_mul_exp_arg_mul_I _

/-- A slope that is the tangent of the angle to a heading has the direction of the heading. -/
theorem velocity_eq {s : Spline ℝ} {x heading : ℝ}
    (hslope : s.slope x = Real.tan (heading - (span start finish).arg))
    (hcos : 0 < Real.cos (heading - (span start finish).arg)) :
    s.velocity start finish x =
      ((Real.cos (heading - (span start finish).arg))⁻¹ : ℝ) * Complex.exp (heading * Complex.I) := by
  set angle := heading - (span start finish).arg with hangle
  have hne : Complex.cos angle ≠ 0 := by
    rw [← Complex.ofReal_cos]
    exact_mod_cast hcos.ne'
  have hturn : (1 + Real.tan angle * Complex.I) * Complex.cos angle =
      Complex.exp (angle * Complex.I) := by
    rw [Complex.exp_mul_I, Complex.ofReal_tan, add_mul, one_mul, mul_right_comm,
      Complex.tan_mul_cos hne]
  have hheading : Complex.exp (angle * Complex.I) *
      Complex.exp ((span start finish).arg * Complex.I) = Complex.exp (heading * Complex.I) := by
    rw [← Complex.exp_add, ← add_mul, ← Complex.ofReal_add, hangle, sub_add_cancel]
  rw [velocity, hslope, ← hheading, ← hturn, Complex.ofReal_inv, Complex.ofReal_cos]
  field_simp

/-- A curve begins and ends on its chord, with the slopes of the headings to it; so it runs from one
waypoint to another, and has the direction of the heading at each. -/
structure Joins (spline : Spline ℝ) (start finish : Waypoint ℝ) : Prop where
  chord : spline.chord = ‖span start finish‖
  height_start : spline.height 0 = 0
  height_finish : spline.height spline.chord = 0
  slope_start : spline.slope 0 = Real.tan (start.heading - (span start finish).arg)
  slope_finish : spline.slope spline.chord = Real.tan (finish.heading - (span start finish).arg)
  departs : spline.trace start finish 0 = start.place
  arrives : spline.trace start finish spline.chord = finish.place
  leaving : ∃ speed : ℝ, 0 < speed ∧
    HasDerivAt (spline.trace start finish) (speed * start.direction) 0
  arriving : ∃ speed : ℝ, 0 < speed ∧
    HasDerivAt (spline.trace start finish) (speed * finish.direction) spline.chord

theorem joins_of_fit {segment : Nat} (h : fit segment start finish = .ok spline) :
    spline.Joins start finish := by
  have hfaulty := exists_fit_iff.1 ⟨spline, h⟩
  simp only [Faulty, not_or] at hfaulty
  obtain ⟨hfar, hstart, hfinish⟩ := hfaulty
  rw [fit_real, if_neg hfar, if_neg (mt across_iff.2 hstart), if_neg (mt across_iff.2 hfinish),
    headingError, headingError, Scalar.tan_wrapAngle, Scalar.tan_wrapAngle] at h
  have hchord : spline.chord = ‖span start finish‖ := by
    cases h
    rw [ofSlopes_real]
  have hleaving : spline.slope 0 = Real.tan (start.heading - (span start finish).arg) := by
    cases h
    exact slope_ofSlopes_zero _ _ _
  have harriving :
      spline.slope spline.chord = Real.tan (finish.heading - (span start finish).arg) := by
    rw [hchord]
    cases h
    exact slope_ofSlopes_chord _ _ (norm_ne_zero_iff.2 (span_ne_zero hfar))
  have hzero : spline.height 0 = 0 := by
    cases h
    exact height_ofSlopes_zero _ _ _
  have hend : spline.height spline.chord = 0 := by
    rw [hchord]
    cases h
    exact height_ofSlopes_chord _ _ _
  exact {
    chord := hchord
    height_start := hzero
    height_finish := hend
    slope_start := hleaving
    slope_finish := harriving
    departs := by simp [trace, hzero]
    arrives := by
      rw [trace, hend, hchord, Complex.ofReal_zero, zero_mul, add_zero, span_eq,
        add_sub_cancel]
    -- Along a heading that is not across the chord the speed has a positive factor.
    leaving := ⟨_, inv_pos.2 (cos_pos_of_not_across hstart),
      (spline.hasDerivAt_trace start finish 0).congr_deriv
        (velocity_eq hleaving (cos_pos_of_not_across hstart))⟩
    arriving := ⟨_, inv_pos.2 (cos_pos_of_not_across hfinish),
      (spline.hasDerivAt_trace start finish spline.chord).congr_deriv
        (velocity_eq harriving (cos_pos_of_not_across hfinish))⟩ }

/-- One curve meets the next where their waypoints meet, in its place and going the same way. -/
theorem Joins.meets {first second third : Waypoint ℝ} {before after : Spline ℝ}
    (hb : before.Joins first second) (ha : after.Joins second third) :
    before.trace first second before.chord = after.trace second third 0 ∧
      ∃ ratio : ℝ, 0 < ratio ∧ deriv (after.trace second third) 0 =
        ratio * deriv (before.trace first second) before.chord := by
  refine ⟨hb.arrives.trans ha.departs.symm, ?_⟩
  obtain ⟨arriving, hpos, harriving⟩ := hb.arriving
  obtain ⟨leaving, hpos', hleaving⟩ := ha.leaving
  refine ⟨leaving / arriving, div_pos hpos' hpos, ?_⟩
  have hne : (arriving : ℂ) ≠ 0 := by exact_mod_cast hpos.ne'
  rw [hleaving.deriv, harriving.deriv, Complex.ofReal_div]
  field_simp

/-- Curves are refused just where two neighbouring waypoints are at the same place or one has its
heading across the chord, and of the first such neighbours that is reported, the same place before a
heading and the heading of the first before that of the second. Otherwise there is one curve from
each waypoint to the next, and they join without a corner. What planning takes for the slope and the
curvature of a curve are the derivative of its height and the curvature of the path in the plane. -/
theorem fitAll_joins_waypoints (waypoints : List (Waypoint ℝ)) :
    ((∃ e, fitAll waypoints = .error e) ↔
        ∃ i start finish, Neighbours waypoints i start finish ∧ Faulty start finish) ∧
      (∀ e, fitAll waypoints = .error e ↔
        ∃ i start finish, Neighbours waypoints i start finish ∧ Fault i start finish e ∧
          ∀ j < i, ∀ start finish, Neighbours waypoints j start finish → ¬Faulty start finish) ∧
      (∀ splines, fitAll waypoints = .ok splines →
        splines.length = waypoints.length - 1 ∧
          (∀ i start finish, Neighbours waypoints i start finish →
            ∃ spline, splines[i]? = some spline ∧ spline.Joins start finish) ∧
          ∀ i first second third, Neighbours waypoints i first second →
            Neighbours waypoints (i + 1) second third →
              ∃ before after, splines[i]? = some before ∧ splines[i + 1]? = some after ∧
                before.trace first second before.chord = after.trace second third 0 ∧
                ∃ ratio : ℝ, 0 < ratio ∧ deriv (after.trace second third) 0 =
                  ratio * deriv (before.trace first second) before.chord) ∧
      ∀ (spline : Spline ℝ) (start finish : Waypoint ℝ) (x : ℝ),
        HasDerivAt spline.height (spline.slope x) x ∧
          spline.curvature x = signedCurvature (deriv (spline.trace start finish) x)
            (deriv (deriv (spline.trace start finish)) x) := by
  refine ⟨exists_fitAll_error_iff, fun e => fitAll_eq_error_iff, fun splines h => ?_,
    fun spline start finish x =>
      ⟨spline.hasDerivAt_height x, spline.curvature_eq_signedCurvature start finish x⟩⟩
  have hjoins : ∀ i start finish, Neighbours waypoints i start finish →
      ∃ spline, splines[i]? = some spline ∧ spline.Joins start finish := by
    intro i start finish hn
    obtain ⟨spline, hs, hfit⟩ := fit_of_neighbours h hn
    exact ⟨spline, hs, joins_of_fit hfit⟩
  refine ⟨length_fitFrom h, hjoins, fun i first second third hfirst hsecond => ?_⟩
  obtain ⟨before, hbefore, hb⟩ := hjoins i first second hfirst
  obtain ⟨after, hafter, ha⟩ := hjoins (i + 1) second third hsecond
  exact ⟨before, after, hbefore, hafter, hb.meets ha⟩

end Spline

end SkidSteer
