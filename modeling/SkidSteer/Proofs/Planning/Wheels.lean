import SkidSteer.Proofs.Planning.Angles
import SkidSteer.Proofs.Planning.Samples

namespace SkidSteer

def Segment.Keeps (limits : Limits ℝ) (segment : Segment ℝ) : Prop :=
  |segment.velocity| ≤ limits.velocity ∧ |segment.acceleration| ≤ limits.acceleration

namespace Planner

variable {p : Planner ℝ} {table : CurvatureTable ℝ} {profile : VelocityProfile ℝ}
  {limits : Limits ℝ}

/-- The turns of a path leave room for the outer wheel at each of so many steps: it starts straight,
the speed there and the lead of the outer wheel are within the speed limit together, and so are
their changes within what the acceleration allows in one period. -/
structure LeavesRoom (p : Planner ℝ) (table : CurvatureTable ℝ) (profile : VelocityProfile ℝ)
    (limits : Limits ℝ) (steps : Nat) : Prop where
  start : 0 < steps → table.curvatureAt 0 = 0
  velocity : ∀ index < steps, p.speed profile index + |p.lead table profile index| ≤ limits.velocity
  acceleration : ∀ index, index + 1 < steps →
    |p.speed profile (index + 1) - p.speed profile index| +
      |p.lead table profile (index + 1) - p.lead table profile index| ≤
        limits.acceleration * p.samplePeriod

theorem speed_nonneg (h : VelocityProfile.Trapezoid limits profile) (hp : 0 < p.samplePeriod)
    (index : Nat) : 0 ≤ p.speed profile index :=
  h.velocity_nonneg (by positivity)

theorem abs_speed_succ_sub_le (h : VelocityProfile.Trapezoid limits profile)
    (hp : 0 < p.samplePeriod) (index : Nat) :
    |p.speed profile (index + 1) - p.speed profile index| ≤
      limits.acceleration * p.samplePeriod := by
  have hchange := h.abs_velocity_sub_le (t := index * p.samplePeriod)
    (u := (index + 1 : Nat) * p.samplePeriod) (by positivity) (by positivity)
  have hperiod : ((index + 1 : Nat) : ℝ) * p.samplePeriod - index * p.samplePeriod =
      p.samplePeriod := by
    push_cast
    ring
  rwa [hperiod, abs_of_pos hp] at hchange

theorem middle_keeps (h : VelocityProfile.Trapezoid limits profile) (hp : 0 < p.samplePeriod)
    (hstart : (profile.motionAt 0).acceleration = limits.acceleration) (index : Nat) :
    (p.sample table profile index).middle.Keeps limits := by
  constructor
  · rw [sample_middle_velocity, abs_of_nonneg (speed_nonneg h hp index)]
    exact h.velocity_le (by positivity)
  · have hpositive := h.positive
    rw [h.acceleration] at hpositive
    cases index with
    | zero => rw [sample_zero_middle_acceleration, hstart, abs_of_pos hpositive]
    | succ index =>
      rw [sample_succ_middle_acceleration, abs_div, abs_of_pos hp, div_le_iff₀ hp]
      exact abs_speed_succ_sub_le h hp index

theorem wheels_velocity_iff (h : VelocityProfile.Trapezoid limits profile)
    (hp : 0 < p.samplePeriod) (index : Nat) :
    (∀ side, |((p.sample table profile index).side side).velocity| ≤ limits.velocity) ↔
      p.speed profile index + |p.lead table profile index| ≤ limits.velocity := by
  simp only [sample_velocity]
  rw [forall_side_abs_le, abs_of_nonneg (speed_nonneg h hp index)]

/-- A wheel keeps to the acceleration at the start only where the path starts straight. -/
theorem wheels_start_iff (hstart : profile.motionAt 0 = ⟨0, 0, limits.acceleration⟩)
    (ha : 0 < limits.acceleration) (hw : 0 < p.wheelTrack) :
    (∀ side, |((p.sample table profile 0).side side).acceleration| ≤ limits.acceleration) ↔
      table.curvatureAt 0 = 0 := by
  have hbend : p.bend table profile 0 = table.curvatureAt 0 := by
    rw [bend, Nat.cast_zero, zero_mul, hstart]
  simp only [sample_zero_acceleration, hstart, hbend]
  rw [forall_side_abs_le, abs_of_pos ha]
  constructor
  · intro hroom
    have hnone : limits.acceleration * (table.curvatureAt 0 * p.wheelTrack / 2) = 0 :=
      abs_nonpos_iff.1 (by linarith)
    simpa [ha.ne', hw.ne'] using hnone
  · intro hstraight
    simp [hstraight]

theorem wheels_acceleration_iff (hp : 0 < p.samplePeriod) (index : Nat) :
    (∀ side, |((p.sample table profile (index + 1)).side side).acceleration| ≤
      limits.acceleration) ↔
      |p.speed profile (index + 1) - p.speed profile index| +
        |p.lead table profile (index + 1) - p.lead table profile index| ≤
          limits.acceleration * p.samplePeriod := by
  simp only [sample_succ_acceleration]
  rw [forall_side_abs_le, abs_div, abs_div, abs_of_pos hp, ← add_div, div_le_iff₀ hp]

theorem wheels_keep_iff_leavesRoom (h : VelocityProfile.Trapezoid limits profile)
    (hp : 0 < p.samplePeriod) (hstart : profile.motionAt 0 = ⟨0, 0, limits.acceleration⟩)
    (ha : 0 < limits.acceleration) (hw : 0 < p.wheelTrack) (steps : Nat) :
    (∀ index < steps, ∀ side, ((p.sample table profile index).side side).Keeps limits) ↔
      LeavesRoom p table profile limits steps := by
  constructor
  · intro hkeeps
    refine ⟨fun hsteps => ?_, fun index hi => ?_, fun index hi => ?_⟩
    · exact (wheels_start_iff hstart ha hw).1 fun side => (hkeeps 0 hsteps side).2
    · exact (wheels_velocity_iff h hp index).1 fun side => (hkeeps index hi side).1
    · exact (wheels_acceleration_iff hp index).1 fun side => (hkeeps (index + 1) hi side).2
  · intro hroom index hi side
    refine ⟨(wheels_velocity_iff h hp index).2 (hroom.velocity index hi) side, ?_⟩
    cases index with
    | zero => exact (wheels_start_iff hstart ha hw).2 (hroom.start hi) side
    | succ index => exact (wheels_acceleration_iff hp index).2 (hroom.acceleration index hi) side

theorem length_pos {waypoints : List (Waypoint ℝ)} {splines : List (Spline ℝ)}
    (hmany : 2 ≤ waypoints.length) (hfit : Spline.fitAll waypoints = .ok splines) :
    0 < (CurvatureTable.ofSplines splines).length := by
  have hchord : ∀ spline ∈ splines, 0 < spline.chord := by
    intro spline hs
    obtain ⟨number, start, finish, hone⟩ := Spline.exists_fit_of_mem hfit spline hs
    have hshort : (0 : ℝ) < Spline.shortestChord := by norm_num [Spline.shortestChord]
    exact hshort.trans_le (not_lt.1 (Spline.not_chord_lt_shortestChord hone))
  refine lt_of_lt_of_le (List.sum_pos _ ?_ ?_)
    (CurvatureTable.sum_chord_le_length fun spline hs => (hchord spline hs).le)
  · intro chord hc
    obtain ⟨spline, hs, rfl⟩ := List.mem_map.1 hc
    exact hchord spline hs
  · simpa using Spline.ne_nil_of_fitAll hmany hfit

/-- How the limits show in a plan. The middle of the chassis keeps to them at each sample. Its
wheels do exactly where the turns leave room for it. -/
theorem wheels_keep_limits_iff {p : Planner ℝ} {waypoints : List (Waypoint ℝ)} {limits : Limits ℝ}
    {plan : Plan ℝ} (hw : 0 < p.wheelTrack) (h : p.plan waypoints limits = .ok plan) :
    (∀ sample ∈ plan.trajectory.samples, sample.middle.Keeps limits) ∧
      ((∀ sample ∈ plan.trajectory.samples, ∀ side, (sample.side side).Keeps limits) ↔
        plan = .empty ∨ ∃ splines, Spline.fitAll waypoints = .ok splines ∧
          LeavesRoom p (.ofSplines splines)
            (.ofDistance (CurvatureTable.ofSplines splines).length limits) limits
            plan.trajectory.size) := by
  obtain ⟨hvalid, hperiod, rfl | ⟨splines, t, hmany, hfit, hfollow, rfl⟩⟩ := plan_eq h
  · exact ⟨nofun, iff_of_true nofun (Or.inl rfl)⟩
  · have hp : 0 < p.samplePeriod := (Scalar.isPositive_real _).1 hperiod
    have ha := ((Limits.isValid_real limits).1 hvalid).2.1
    have hprofile := VelocityProfile.trapezoid_ofDistance
      (CurvatureTable.ofSplines splines).length hvalid
    have hstart := VelocityProfile.motionAt_zero (length_pos hmany hfit) hvalid
    refine ⟨(forall_mem_follow hfollow).2 fun index _ => ?_, ?_⟩
    · exact middle_keeps hprofile hp (by rw [hstart]) index
    refine (forall_mem_follow hfollow).trans ?_
    rw [wheels_keep_iff_leavesRoom hprofile hp hstart ha hw]
    constructor
    · exact fun hroom => Or.inr ⟨splines, hfit, hroom⟩
    · rintro (hempty | ⟨others, hothers, hroom⟩)
      · cases hempty
      · obtain rfl := Except.ok.inj (hfit.symm.trans hothers)
        exact hroom

theorem leavesRoom_of_straight (h : VelocityProfile.Trapezoid limits profile)
    (hp : 0 < p.samplePeriod) (hstraight : ∀ distance, table.curvatureAt distance = 0)
    (steps : Nat) : LeavesRoom p table profile limits steps := by
  have hlead : ∀ index, p.lead table profile index = 0 := by
    intro index
    rw [lead, bend, hstraight]
    ring
  refine ⟨fun _ => hstraight 0, fun index _ => ?_, fun index _ => ?_⟩
  · rw [hlead, abs_zero, add_zero]
    exact h.velocity_le (by positivity)
  · rw [hlead, hlead, sub_zero, abs_zero, add_zero]
    exact abs_speed_succ_sub_le h hp index

/-- An arch over a chord of one metre, which is left and met at the same angle. -/
def arch (heading : ℝ) : List (Waypoint ℝ) := [⟨0, 0, heading⟩, ⟨1, 0, -heading⟩]

/-- A chassis that is a quarter of a metre wide, sampled twice a second. -/
noncomputable def narrow : Planner ℝ := ⟨0.25, 0.5⟩

/-- One metre per second, which is reached in half a second. -/
noncomputable def brisk : Limits ℝ := ⟨1.0, 2.0, 10.0⟩

theorem narrow_eq : narrow = ⟨1 / 4, 1 / 2⟩ := by
  rw [narrow]
  norm_num

theorem brisk_eq : brisk = ⟨1, 2, 10⟩ := by
  rw [brisk]
  norm_num

theorem isValid_brisk : brisk.isValid = true := by
  rw [Limits.isValid_real, brisk_eq]
  norm_num

theorem narrow_wheelTrack_pos : 0 < narrow.wheelTrack := by
  rw [narrow_eq]
  norm_num

theorem narrow_samplePeriod_pos : 0 < narrow.samplePeriod := by
  rw [narrow_eq]
  norm_num

def archSpline (slope : ℝ) : Spline ℝ := ⟨0, -slope, slope, 1⟩

theorem fitAll_arch {heading : ℝ} (hlow : 0 ≤ heading) (hhigh : heading ≤ 1 / 2) :
    Spline.fitAll (arch heading) = .ok [archSpline (Real.tan heading)] := by
  have hpi := Real.pi_gt_three
  have hdirection : Scalar.atan2 (0 : ℝ) 1 = 0 := by
    change Complex.arg ⟨1, 0⟩ = 0
    exact Complex.arg_one
  have hleaving : Scalar.wrapAngle heading = heading :=
    Scalar.wrapAngle_of_mem (by linarith) (by linarith)
  have harriving : Scalar.wrapAngle (-heading) = -heading :=
    Scalar.wrapAngle_of_mem (by linarith) (by linarith)
  have hallowed : ¬Spline.largestHeadingError < heading := by
    simp only [Spline.largestHeadingError, Scalar.pi_real]
    norm_num
    linarith
  have hlong : ¬(1 : ℝ) < Spline.shortestChord := by norm_num [Spline.shortestChord]
  have hfit : Spline.fit 0 (⟨0, 0, heading⟩ : Waypoint ℝ) ⟨1, 0, -heading⟩ =
      .ok (archSpline (Real.tan heading)) := by
    have hslopes : Real.tan heading + -(2 * Real.tan heading) = -Real.tan heading := by ring
    unfold Spline.fit
    simp [hdirection, hleaving, harriving, hallowed, hlong, abs_of_nonneg hlow,
      Spline.ofSlopes_real, archSpline, hslopes]
  simp [Spline.fitAll, arch, Spline.fitFrom, hfit]

theorem slope_archSpline (slope x : ℝ) : (archSpline slope).slope x = slope * (1 - 2 * x) := by
  rw [Spline.slope_real, archSpline]
  ring

/-- An arch turns right all along, as far as it is one. -/
theorem curvature_archSpline (slope x : ℝ) :
    ∃ scale > 0, (archSpline slope).curvature x = -(slope * scale) := by
  have hpos : 0 < (1 + (archSpline slope).slope x * (archSpline slope).slope x) ^ (3 / 2 : ℝ) :=
    Real.rpow_pos_of_pos (by linarith [mul_self_nonneg ((archSpline slope).slope x)]) _
  refine ⟨2 / _, div_pos two_pos hpos, ?_⟩
  rw [Spline.curvature_real]
  simp only [archSpline]
  ring

/-- An arch that is not steep is no longer than twice its chord. -/
theorem length_arch {slope : ℝ} (hlow : 0 ≤ slope) (hhigh : slope ≤ 1) :
    1 ≤ (CurvatureTable.ofSplines [archSpline slope]).length ∧
      (CurvatureTable.ofSplines [archSpline slope]).length ≤ 2 := by
  have hstretch : CurvatureTable.StretchesBy (archSpline slope) 2 := by
    intro x hx hchord
    replace hchord : x ≤ 1 := hchord
    have hfrom : -1 ≤ slope * (1 - 2 * x) := by nlinarith
    have hto : slope * (1 - 2 * x) ≤ 1 := by nlinarith
    rw [CurvatureTable.stretch, slope_archSpline]
    exact Real.sqrt_le_iff.2 ⟨by norm_num, by nlinarith⟩
  have hchord : (archSpline slope).chord = 1 := rfl
  have hspans : 0 ≤ (archSpline slope).chord := zero_le_one
  obtain ⟨hleast, hgreatest⟩ := CurvatureTable.length_addSpline_bounds (t := .empty) hspans
  replace hgreatest := hgreatest 2 hstretch
  rw [CurvatureTable.length_empty_real, hchord, zero_add] at hleast
  rw [CurvatureTable.length_empty_real, hchord, zero_add, one_mul] at hgreatest
  exact ⟨hleast, hgreatest⟩

theorem tan_mem {heading : ℝ} (hlow : 0 ≤ heading) (hhigh : heading ≤ 1 / 2) :
    0 ≤ Real.tan heading ∧ Real.tan heading ≤ 1 := by
  have hpi := Real.pi_gt_three
  refine ⟨Real.tan_nonneg_of_nonneg_of_le_pi_div_two hlow (by linarith), ?_⟩
  rw [← Real.tan_pi_div_four]
  exact (Real.tan_lt_tan_of_lt_of_lt_pi_div_two (by linarith) (by linarith) (by linarith)).le

/-- The profile along a path of at least a metre, at a brisk pace, is at its peak half a second
after the start. -/
theorem brisk_profile {distance : ℝ} (hd : 1 ≤ distance) :
    VelocityProfile.ofDistance distance brisk = ⟨2, 1, 1 / 2, distance - 1 / 2, distance⟩ := by
  rw [VelocityProfile.ofDistance_real, brisk_eq, if_neg (by norm_num; linarith)]
  norm_num

theorem sampleCount_arch {distance : ℝ} (hleast : 1 ≤ distance) (hgreatest : distance ≤ 2) :
    2 ≤ narrow.sampleCount (.ofDistance distance brisk) ∧
      narrow.sampleCount (.ofDistance distance brisk) ≤ 6 := by
  have hcount : narrow.sampleCount (.ofDistance distance brisk) =
      (⌈2 * distance + 1⌉ : ℝ) + 1 := by
    rw [sampleCount_real, brisk_profile hleast, VelocityProfile.duration_real, narrow_eq]
    congr 3
    ring
  have hlow : (1 : ℝ) ≤ ⌈2 * distance + 1⌉ := by
    refine le_trans ?_ (Int.le_ceil _)
    linarith
  have hhigh : (⌈2 * distance + 1⌉ : ℝ) ≤ 5 := by
    have hceil : ⌈2 * distance + 1⌉ ≤ 5 := Int.ceil_le.2 (by push_cast; linarith)
    exact_mod_cast hceil
  rw [hcount]
  exact ⟨by linarith, by linarith⟩

/-- Every arch that is not steep has a plan, with two samples at least. -/
theorem plan_arch {heading : ℝ} (hlow : 0 ≤ heading) (hhigh : heading ≤ 1 / 2) :
    ∃ t, narrow.follow (.ofSplines [archSpline (Real.tan heading)])
        (.ofDistance (CurvatureTable.ofSplines [archSpline (Real.tan heading)]).length brisk) =
          .ok t ∧ 2 ≤ t.size ∧
      narrow.plan (arch heading) brisk =
        .ok (.path (CurvatureTable.ofSplines [archSpline (Real.tan heading)]).length 2 t) := by
  obtain ⟨hflat, hsteep⟩ := tan_mem hlow hhigh
  obtain ⟨hleast, hgreatest⟩ := length_arch hflat hsteep
  obtain ⟨hfew, hmany⟩ := sampleCount_arch hleast hgreatest
  have hmost : (6 : ℝ) ≤ mostSamples := by norm_num [mostSamples]
  obtain ⟨t, hfollow⟩ := follow_of_sampleCount_le
    (.ofSplines [archSpline (Real.tan heading)]) (hmany.trans hmost)
  refine ⟨t, hfollow, ?_, plan_of_follow isValid_brisk narrow_samplePeriod_pos (le_refl 2)
    (fitAll_arch hlow hhigh) hfollow⟩
  rw [size_of_follow hfollow]
  exact Nat.le_floor (by exact_mod_cast hfew)

theorem curvatureAt_arch {slope : ℝ} (hlow : 0 ≤ slope) (hhigh : slope ≤ 1) (distance : ℝ) :
    ∃ scale > 0, (CurvatureTable.ofSplines [archSpline slope]).curvatureAt distance =
      -(slope * scale) := by
  have hlength : 0 < (CurvatureTable.ofSplines [archSpline slope]).length :=
    one_pos.trans_le (length_arch hlow hhigh).1
  let turns (curvature : ℝ) : Prop := ∃ scale > 0, curvature = -(slope * scale)
  have hturns : ∀ spline ∈ [archSpline slope], ∀ x, turns (spline.curvature x) := by
    intro spline hs
    rw [List.mem_singleton.1 hs]
    exact curvature_archSpline slope
  exact CurvatureTable.curvatureAt_of_forall (P := turns) (CurvatureTable.marks_ne_empty hlength)
    (CurvatureTable.forall_ofSplines hturns) distance

/-- Along a straight line both wheels keep to the limits. -/
theorem straight_line_keeps_limits : ∃ plan, 0 < narrow.wheelTrack ∧
    narrow.plan (arch 0) brisk = .ok plan ∧
    ∀ sample ∈ plan.trajectory.samples, ∀ side, (sample.side side).Keeps brisk := by
  obtain ⟨t, -, -, hplan⟩ := plan_arch le_rfl one_half_pos.le
  have hw := narrow_wheelTrack_pos
  have hfit := fitAll_arch le_rfl one_half_pos.le
  refine ⟨_, hw, hplan, (wheels_keep_limits_iff hw hplan).2.2 (Or.inr ⟨_, hfit, ?_⟩)⟩
  refine leavesRoom_of_straight (VelocityProfile.trapezoid_ofDistance _ isValid_brisk)
    narrow_samplePeriod_pos ?_ _
  intro distance
  rw [Real.tan_zero]
  obtain ⟨scale, -, hcurvature⟩ := curvatureAt_arch le_rfl zero_le_one distance
  rw [hcurvature]
  ring

/-- Where a path turns right the right wheel lags. -/
theorem lead_neg {middle curvature : ℝ} (hmiddle : 0 < middle) (hw : 0 < p.wheelTrack)
    (hturns : curvature < 0) : middle * (curvature * p.wheelTrack / 2) < 0 :=
  mul_neg_of_pos_of_neg hmiddle
    (div_neg_of_neg_of_pos (mul_neg_of_neg_of_pos hturns hw) two_pos)

/-- Where a path turns right the left wheel is ahead of the middle. -/
theorem left_velocity_lt {index : Nat} (hspeed : 0 < p.speed profile index)
    (hw : 0 < p.wheelTrack) (hturns : p.bend table profile index < 0) :
    p.speed profile index < ((p.sample table profile index).side .left).velocity := by
  have hlead : p.lead table profile index < 0 := lead_neg hspeed hw hturns
  rw [sample_velocity, Side.sign]
  linarith

/-- A path that starts with a turn to the right starts with the left wheel ahead. -/
theorem left_acceleration_lt (ha : 0 < (profile.motionAt 0).acceleration) (hw : 0 < p.wheelTrack)
    (hturns : p.bend table profile 0 < 0) :
    (profile.motionAt 0).acceleration < ((p.sample table profile 0).side .left).acceleration := by
  have hlead := lead_neg ha hw hturns
  rw [sample_zero_acceleration, Side.sign]
  linarith

/-- With the second sample the middle is at the limit. -/
theorem brisk_speed {distance : ℝ} (hd : 1 ≤ distance) :
    narrow.speed (.ofDistance distance brisk) 1 = brisk.velocity := by
  rw [speed, brisk_profile hd, VelocityProfile.motionAt_real, narrow_eq, brisk_eq]
  norm_num
  rw [if_pos (by linarith)]

/-- On an arch to the right the left wheel is faster than the speed limit once the middle is at it,
and it starts with more than the acceleration allows. -/
theorem outer_wheel_breaks_limits : ∃ plan, narrow.plan (arch (1 / 2)) brisk = .ok plan ∧
    (∃ sample ∈ plan.trajectory.samples, brisk.velocity < |sample.left.velocity|) ∧
    ∃ sample ∈ plan.trajectory.samples, brisk.acceleration < |sample.left.acceleration| := by
  obtain ⟨t, hfollow, hsize, hplan⟩ := plan_arch one_half_pos.le le_rfl
  obtain ⟨hflat, hsteep⟩ := tan_mem one_half_pos.le le_rfl
  have hleast := (length_arch hflat hsteep).1
  have hw := narrow_wheelTrack_pos
  have hright : ∀ distance, (CurvatureTable.ofSplines
      [archSpline (Real.tan (1 / 2))]).curvatureAt distance < 0 := by
    intro distance
    have hturns : 0 < Real.tan (1 / 2) :=
      Real.tan_pos_of_pos_of_lt_pi_div_two one_half_pos (by linarith [Real.pi_gt_three])
    obtain ⟨scale, hscale, hcurvature⟩ := curvatureAt_arch hflat hsteep distance
    rw [hcurvature]
    exact neg_neg_of_pos (mul_pos hturns hscale)
  obtain ⟨hmoves, hpushes, -⟩ := (Limits.isValid_real brisk).1 isValid_brisk
  have hfirst : 0 < t.size := by omega
  have hsecond : 1 < t.size := by omega
  refine ⟨_, hplan, ⟨_, sample_mem_follow hfollow hsecond, ?_⟩,
    ⟨_, sample_mem_follow hfollow hfirst, ?_⟩⟩
  · have hspeed := brisk_speed hleast
    have hfaster := left_velocity_lt (by rw [hspeed]; exact hmoves) hw (hright _)
    rw [hspeed] at hfaster
    exact hfaster.trans_le (le_abs_self _)
  · have hstart := VelocityProfile.motionAt_zero (one_pos.trans_le hleast) isValid_brisk
    have hfaster := left_acceleration_lt (by rw [hstart]; exact hpushes) hw (hright _)
    rw [hstart] at hfaster
    exact hfaster.trans_le (le_abs_self _)

end Planner

end SkidSteer
