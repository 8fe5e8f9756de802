import SkidSteer.Proofs.Planning.Corners
import SkidSteer.Proofs.Planning.Wheels

namespace SkidSteer

section Rise

variable {start width : ℝ} {steps : Nat}

theorem trapezoidSum_rise_of_le (hwidth : 0 ≤ width) (h : steps * width ≤ start) :
    trapezoidSum (rise start) width steps = 0 := by
  induction steps with
  | zero => rfl
  | succ steps ih =>
    have hbefore : steps * width ≤ start := by
      push_cast at h
      linarith
    rw [trapezoidSum, ih hbefore, rise_of_le hbefore, rise_of_le h]
    norm_num

/-- How much more than the area the trapezoid rule gives for a rise. -/
noncomputable def riseExcess (start width : ℝ) (steps : Nat) : ℝ :=
  trapezoidSum (rise start) width steps - riseArea start (steps * width)

theorem riseExcess_of_le (hwidth : 0 ≤ width) (h : steps * width ≤ start) :
    riseExcess start width steps = 0 := by
  rw [riseExcess, trapezoidSum_rise_of_le hwidth h, riseArea_of_le h, sub_zero]

/-- After the corner the trapezoid rule is exact. -/
theorem riseExcess_succ_of_ge (hwidth : 0 ≤ width) (h : start ≤ steps * width) :
    riseExcess start width (steps + 1) = riseExcess start width steps := by
  have hafter : start ≤ (steps + 1 : Nat) * width := by
    push_cast
    linarith
  rw [riseExcess, riseExcess, trapezoidSum, rise_of_ge h, rise_of_ge hafter, riseArea_of_ge h,
    riseArea_of_ge hafter]
  push_cast
  ring

/-- The trapezoid rule cuts off the corner of a rise, in one step of it at most. -/
theorem riseExcess_mem (hwidth : 0 ≤ width) (hstart : 0 ≤ start) (steps : Nat) :
    0 ≤ riseExcess start width steps ∧ riseExcess start width steps ≤ width ^ 2 / 8 := by
  have hnone : (0 : ℝ) ≤ width ^ 2 / 8 := by positivity
  induction steps with
  | zero =>
    rw [riseExcess_of_le hwidth (by simpa using hstart)]
    exact ⟨le_rfl, hnone⟩
  | succ steps ih =>
    rcases le_total ((steps + 1 : Nat) * width) start with hbefore | hpast
    · rw [riseExcess_of_le hwidth hbefore]
      exact ⟨le_rfl, hnone⟩
    rcases le_total start (steps * width) with hafter | hcorner
    · rwa [riseExcess_succ_of_ge hwidth hafter]
    · -- Of this step the rise has only the part `rest`, which the rule replaces by its chord.
      let rest : ℝ := (steps + 1 : Nat) * width - start
      have hrest : riseExcess start width (steps + 1) = rest * (width - rest) / 2 := by
        rw [riseExcess, trapezoidSum, trapezoidSum_rise_of_le hwidth hcorner, rise_of_le hcorner,
          rise_of_ge hpast, riseArea_of_ge hpast]
        ring
      have hfrom : 0 ≤ rest := sub_nonneg.2 hpast
      have hto : 0 ≤ width - rest := by
        simp only [rest]
        push_cast
        linarith
      rw [hrest]
      constructor
      · positivity
      · linarith [sq_nonneg (width / 2 - rest)]

theorem riseExcess_zero (hwidth : 0 ≤ width) (steps : Nat) : riseExcess 0 width steps = 0 := by
  induction steps with
  | zero => exact riseExcess_of_le hwidth (by simp)
  | succ steps ih => rw [riseExcess_succ_of_ge hwidth (by positivity), ih]

end Rise

namespace Planner

variable {p : Planner ℝ} {table : CurvatureTable ℝ} {profile : VelocityProfile ℝ}
  {limits : Limits ℝ} {length : ℝ}

/-- The middle of the chassis moves by the trapezoid rule. -/
theorem middle_position_eq (h : profile.Covers limits length) (hp : 0 < p.samplePeriod)
    (index : Nat) : (p.sample table profile index).middle.position =
      profile.corners (fun start => trapezoidSum (rise start) p.samplePeriod index) := by
  have hspeed : ∀ index, p.speed profile index =
      profile.corners (rise · (index * p.samplePeriod)) :=
    fun index => (h.motionAt_eq_corners (by positivity)).2
  induction index with
  | zero =>
    rw [sample_zero_middle_position]
    simp [VelocityProfile.corners, trapezoidSum]
  | succ index ih =>
    rw [sample_succ_middle_position, ih, hspeed, hspeed]
    simp only [VelocityProfile.corners, trapezoidSum]
    ring

/-- Once the profile has ended the middle is at the end of the path, but for what is cut off at the
corners after the start. -/
theorem middle_position_mem (h : profile.Covers limits length) (hp : 0 < p.samplePeriod)
    {index : Nat} (hend : profile.duration ≤ index * p.samplePeriod) :
    length - limits.acceleration * p.samplePeriod ^ 2 / 4 ≤
        (p.sample table profile index).middle.position ∧
      (p.sample table profile index).middle.position ≤
        length + limits.acceleration * p.samplePeriod ^ 2 / 8 := by
  have harrives : length = profile.corners (riseArea · (index * p.samplePeriod)) := by
    rw [← (h.motionAt_eq_corners (by positivity)).1, h.motionAt_of_ge hend]
  have hexcess : (p.sample table profile index).middle.position - length =
      profile.corners (riseExcess · p.samplePeriod index) := by
    rw [middle_position_eq h hp]
    nth_rewrite 1 [harrives]
    simp only [VelocityProfile.corners, riseExcess]
    ring
  have hcorner : ∀ start, 0 ≤ start →
      0 ≤ profile.acceleration * riseExcess start p.samplePeriod index ∧
        profile.acceleration * riseExcess start p.samplePeriod index ≤
          profile.acceleration * (p.samplePeriod ^ 2 / 8) := by
    intro start hstart
    obtain ⟨hlow, hhigh⟩ := riseExcess_mem hp.le hstart index
    exact ⟨mul_nonneg h.positive.le hlow, mul_le_mul_of_nonneg_left hhigh h.positive.le⟩
  have hramp := h.rampTime_nonneg
  have hcruise := h.cruise
  obtain ⟨hfirst, hfirst'⟩ := hcorner _ hramp
  obtain ⟨hsecond, hsecond'⟩ := hcorner _ (add_nonneg hramp hcruise)
  obtain ⟨hlast, hlast'⟩ := hcorner profile.duration (by rw [profile.duration_real]; positivity)
  rw [VelocityProfile.corners, riseExcess_zero hp.le] at hexcess
  rw [← h.acceleration]
  constructor <;> linarith

/-- A trajectory along a path of this length: it has a sample at the start, and one for each period
begun until the profile ends. It goes from rest at the start to rest at the end. -/
structure Arrives (p : Planner ℝ) (limits : Limits ℝ) (length : ℝ) (t : Trajectory ℝ) : Prop where
  size : (t.size : ℤ) =
    ⌈(VelocityProfile.ofDistance length limits).duration / p.samplePeriod⌉ + 1
  two_le : 2 ≤ t.size
  taken : ∀ (index : Nat) (sample : Sample ℝ), t.samples[index]? = some sample →
    sample.middle.velocity =
      ((VelocityProfile.ofDistance length limits).motionAt (index * p.samplePeriod)).velocity
  before : ∀ index : Nat, index + 1 < t.size →
    index * p.samplePeriod < (VelocityProfile.ofDistance length limits).duration
  start : ∃ first, t.samples[0]? = some first ∧
    ∀ side, (first.side side).position = 0 ∧ (first.side side).velocity = 0
  finish : ∃ last, t.samples.back? = some last ∧ (∀ side, (last.side side).velocity = 0) ∧
    length - limits.acceleration * p.samplePeriod ^ 2 / 4 ≤ last.middle.position ∧
      last.middle.position ≤ length + limits.acceleration * p.samplePeriod ^ 2 / 8

/-- While the middle stands, both wheels do. -/
theorem velocity_eq_zero {index : Nat} (h : p.speed profile index = 0) (side : Side) :
    ((p.sample table profile index).side side).velocity = 0 := by
  rw [sample_velocity, lead, h]
  ring

/-- There is a sample at the start, and one for each period begun until the profile ends. -/
theorem size_follow_eq {t : Trajectory ℝ} (hp : 0 < p.samplePeriod) (hd : 0 ≤ profile.duration)
    (h : p.follow table profile = .ok t) :
    (t.size : ℤ) = ⌈profile.duration / p.samplePeriod⌉ + 1 := by
  have hcount : 0 ≤ p.sampleCount profile := by
    rw [sampleCount_real]
    have hceil := Int.ceil_nonneg (div_nonneg hd hp.le)
    exact_mod_cast add_nonneg hceil zero_le_one
  rw [size_of_follow h, Scalar.toCount_real, Int.natCast_floor_eq_floor hcount, sampleCount_real,
    Int.floor_add_one, Int.floor_intCast]

theorem arrives_of_follow (hlength : 0 < length) (hv : limits.isValid = true)
    (hp : 0 < p.samplePeriod) {t : Trajectory ℝ}
    (h : p.follow table (.ofDistance length limits) = .ok t) : Arrives p limits length t := by
  have hprofile := VelocityProfile.covers_ofDistance hlength hv
  have hduration := hprofile.duration_pos hlength
  have hsize := size_follow_eq hp hduration.le h
  have hceil := Int.ceil_pos.2 (div_pos hduration hp)
  obtain ⟨last, hlast⟩ : ∃ last, t.size = last + 1 := ⟨t.size - 1, by omega⟩
  have hended : (VelocityProfile.ofDistance length limits).duration ≤ last * p.samplePeriod := by
    have hsteps : (last : ℤ) =
        ⌈(VelocityProfile.ofDistance length limits).duration / p.samplePeriod⌉ := by omega
    rw [← div_le_iff₀ hp, ← Int.cast_natCast last, hsteps]
    exact Int.le_ceil _
  constructor
  case size => exact hsize
  case two_le => omega
  case taken =>
    intro index sample hsample
    obtain ⟨hi, -⟩ := Array.getElem?_eq_some_iff.1 hsample
    obtain rfl := Option.some.inj ((getElem?_follow h hi).symm.trans hsample)
    exact sample_middle_velocity _ _ _ index
  case before =>
    intro index hi
    rw [← lt_div_iff₀ hp, ← Int.cast_natCast index]
    exact Int.lt_ceil.1 (by omega)
  case start =>
    have hrest : p.speed (.ofDistance length limits) 0 = 0 := by
      rw [speed, Nat.cast_zero, zero_mul, VelocityProfile.motionAt_zero hlength hv]
    exact ⟨_, getElem?_follow h (by omega), fun side =>
      ⟨sample_zero_position _ _ _ side, velocity_eq_zero hrest side⟩⟩
  case finish =>
    have hback : t.samples.back? = some (p.sample table (.ofDistance length limits) last) := by
      rw [Array.back?_eq_getElem?]
      change t.samples[t.size - 1]? = _
      rw [hlast, Nat.add_sub_cancel]
      exact getElem?_follow h (by omega)
    have hrest : p.speed (.ofDistance length limits) last = 0 := by
      rw [speed, hprofile.motionAt_of_ge hended]
    exact ⟨_, hback, velocity_eq_zero hrest, middle_position_mem hprofile hp hended⟩

theorem follow_of_plan {p : Planner ℝ} {waypoints : List (Waypoint ℝ)} {limits : Limits ℝ}
    {plan : Plan ℝ} (hmany : 2 ≤ waypoints.length) (h : p.plan waypoints limits = .ok plan) :
    limits.isValid = true ∧ 0 < p.samplePeriod ∧
      ∃ splines t, Spline.fitAll waypoints = .ok splines ∧
        p.follow (.ofSplines splines)
          (.ofDistance (CurvatureTable.ofSplines splines).length limits) = .ok t ∧
        plan = .path (CurvatureTable.ofSplines splines).length waypoints.length t := by
  obtain ⟨hvalid, hperiod, rfl | ⟨splines, t, -, hfit, hfollow, hplan⟩⟩ := plan_eq h
  · exact absurd h (plan_ne_empty hmany)
  · exact ⟨hvalid, (Scalar.isPositive_real _).1 hperiod, splines, t, hfit, hfollow, hplan⟩

/-- Without rounding a path has a plan exactly if it has curves, its limits and period are positive,
and it does not take too many samples. The plan goes from rest at the start to rest at the end of
the path, and all its samples but the last are taken before the profile ends. -/
theorem plan_arrives {p : Planner ℝ} {waypoints : List (Waypoint ℝ)} {limits : Limits ℝ}
    (hmany : 2 ≤ waypoints.length) :
    ((∃ plan, p.plan waypoints limits = .ok plan) ↔
      limits.isValid = true ∧ 0 < p.samplePeriod ∧
        ∃ splines, Spline.fitAll waypoints = .ok splines ∧
          p.sampleCount (.ofDistance (CurvatureTable.ofSplines splines).length limits) ≤
            mostSamples) ∧
      ∀ plan, p.plan waypoints limits = .ok plan →
        ∃ splines t, Spline.fitAll waypoints = .ok splines ∧
          plan = .path (CurvatureTable.ofSplines splines).length waypoints.length t ∧
          Arrives p limits (CurvatureTable.ofSplines splines).length t := by
  refine ⟨⟨?_, ?_⟩, ?_⟩
  · rintro ⟨plan, h⟩
    obtain ⟨hvalid, hperiod, splines, t, hfit, hfollow, -⟩ := follow_of_plan hmany h
    exact ⟨hvalid, hperiod, splines, hfit, sampleCount_le_of_follow hfollow⟩
  · rintro ⟨hvalid, hperiod, splines, hfit, hcount⟩
    obtain ⟨t, hfollow⟩ := follow_of_sampleCount_le (.ofSplines splines) hcount
    exact ⟨_, plan_of_follow hvalid hperiod hmany hfit hfollow⟩
  · intro plan h
    obtain ⟨hvalid, hperiod, splines, t, hfit, hfollow, rfl⟩ := follow_of_plan hmany h
    exact ⟨splines, t, hfit, rfl,
      arrives_of_follow (length_pos hmany hfit) hvalid hperiod hfollow⟩

/-- The plan of an arch, which turns all along, goes as far as the arch. -/
theorem arch_arrives : 2 ≤ (arch (1 / 2)).length ∧ ∃ plan, narrow.plan (arch (1 / 2)) brisk =
    .ok plan ∧ ∃ length t, plan = .path length 2 t ∧ 1 ≤ length ∧
      Arrives narrow brisk length t := by
  have hmany : 2 ≤ (arch (1 / 2)).length := le_rfl
  obtain ⟨_, -, -, hplan⟩ := plan_arch one_half_pos.le le_rfl
  obtain ⟨splines, t, hfit, hpath, harrives⟩ := (plan_arrives hmany).2 _ hplan
  obtain rfl := Except.ok.inj ((fitAll_arch one_half_pos.le le_rfl).symm.trans hfit)
  obtain ⟨hflat, hsteep⟩ := tan_mem one_half_pos.le le_rfl
  exact ⟨hmany, _, hplan, _, t, hpath, (length_arch hflat hsteep).1, harrives⟩

end Planner

end SkidSteer
