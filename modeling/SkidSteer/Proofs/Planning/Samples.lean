import SkidSteer.Proofs.Planning.Profile
import SkidSteer.Proofs.Planning.Steps
import SkidSteer.Proofs.Planning.Table

namespace SkidSteer

namespace Planner

theorem sampleCount_real (p : Planner ℝ) (profile : VelocityProfile ℝ) :
    p.sampleCount profile = (⌈profile.duration / p.samplePeriod⌉ : ℝ) + 1 := by
  change (⌈profile.duration / p.samplePeriod⌉ : ℝ) + 1.0 = _
  norm_num

theorem all_isFinite_real (samples : Array (Sample ℝ)) :
    samples.all (Sample.all Scalar.isFinite) = true :=
  Array.all_eq_true_iff_forall_mem.2 fun _ _ => rfl

/-- Without rounding only too many samples keep a profile from being followed. -/
theorem follow_of_sampleCount_le {p : Planner ℝ} {profile : VelocityProfile ℝ}
    (table : CurvatureTable ℝ) (hmost : p.sampleCount profile ≤ mostSamples) :
    ∃ t, p.follow table profile = .ok t :=
  ⟨⟨_⟩, follow_eq_ok_iff.2 ⟨rfl, not_lt.2 hmost, all_isFinite_real _, rfl⟩⟩

theorem sampleCount_le_of_follow {p : Planner ℝ} {table : CurvatureTable ℝ}
    {profile : VelocityProfile ℝ} {t : Trajectory ℝ} (h : p.follow table profile = .ok t) :
    p.sampleCount profile ≤ mostSamples :=
  not_lt.1 (follow_eq_ok_iff.1 h).2.1

theorem plan_of_follow {p : Planner ℝ} {waypoints : List (Waypoint ℝ)} {limits : Limits ℝ}
    {splines : List (Spline ℝ)} {t : Trajectory ℝ} (hlimits : limits.isValid = true)
    (hperiod : 0 < p.samplePeriod) (hmany : 2 ≤ waypoints.length)
    (hfit : Spline.fitAll waypoints = .ok splines)
    (hfollow : p.follow (.ofSplines splines)
      (.ofDistance (CurvatureTable.ofSplines splines).length limits) = .ok t) :
    p.plan waypoints limits =
      .ok (.path (CurvatureTable.ofSplines splines).length waypoints.length t) := by
  have hp : Scalar.isPositive p.samplePeriod = true := (Scalar.isPositive_real _).2 hperiod
  unfold Planner.plan
  simp only [hlimits, hp, hfit, hfollow, Nat.not_lt.2 hmany, Bool.not_true, if_false,
    Bool.false_eq_true]

end Planner

/-- Which way a wheel differs from the middle where a path turns left. -/
def Side.sign : Side → ℝ
  | .left => -1
  | .right => 1

theorem mean_of_sides {value : Side → ℝ} {middle lead : ℝ}
    (h : ∀ side, value side = middle + side.sign * lead) :
    (value .left + value .right) / 2 = middle := by
  rw [h .left, h .right, Side.sign, Side.sign]
  ring

/-- Both sides of something lie within a bound when there is room for their difference. -/
theorem forall_side_abs_le {middle lead bound : ℝ} :
    (∀ side : Side, |middle + side.sign * lead| ≤ bound) ↔ |middle| + |lead| ≤ bound := by
  constructor
  · intro h
    obtain ⟨hleft, hleft'⟩ := abs_le.1 (h .left)
    obtain ⟨hright, hright'⟩ := abs_le.1 (h .right)
    simp only [Side.sign] at hleft hleft' hright hright'
    rcases abs_cases middle with ⟨hm, -⟩ | ⟨hm, -⟩ <;>
      rcases abs_cases lead with ⟨hl, -⟩ | ⟨hl, -⟩ <;> linarith
  · intro h side
    refine (abs_add_le _ _).trans (le_trans ?_ h)
    cases side <;> simp [Side.sign]

namespace Planner

variable (p : Planner ℝ) (table : CurvatureTable ℝ) (profile : VelocityProfile ℝ)

theorem sample_velocity (index : Nat) (side : Side) :
    ((p.sample table profile index).side side).velocity =
      p.speed profile index + side.sign * p.lead table profile index := by
  cases index <;> cases side <;>
    simp [sample, sampleAt, split_real, Sample.side, firstSegment, nextSegment, Side.sign, lead,
      bend, speed] <;> ring

theorem sample_zero_acceleration (side : Side) :
    ((p.sample table profile 0).side side).acceleration =
      (profile.motionAt 0).acceleration + side.sign *
        ((profile.motionAt 0).acceleration * (p.bend table profile 0 * p.wheelTrack / 2)) := by
  cases side <;>
    simp [sample, sampleAt, split_real, Sample.side, firstSegment, Side.sign, bend] <;> ring

theorem sample_succ_acceleration (index : Nat) (side : Side) :
    ((p.sample table profile (index + 1)).side side).acceleration =
      (p.speed profile (index + 1) - p.speed profile index) / p.samplePeriod + side.sign *
        ((p.lead table profile (index + 1) - p.lead table profile index) / p.samplePeriod) := by
  have hbefore := p.sample_velocity table profile index side
  have hnow := p.sample_velocity table profile (index + 1) side
  have hdiff : ((p.sample table profile (index + 1)).side side).acceleration =
      (((p.sample table profile (index + 1)).side side).velocity -
        ((p.sample table profile index).side side).velocity) / p.samplePeriod := by
    cases side <;> rfl
  rw [hdiff, hbefore, hnow]
  ring

theorem sample_zero_position (side : Side) :
    ((p.sample table profile 0).side side).position = 0 := by
  cases side <;> norm_num [sample, sampleAt, split_real, Sample.side, firstSegment]

/-- A wheel moves by the mean of its speeds at both ends of a period. -/
theorem sample_succ_position (index : Nat) (side : Side) :
    ((p.sample table profile (index + 1)).side side).position =
      ((p.sample table profile index).side side).position +
        (((p.sample table profile index).side side).velocity +
          ((p.sample table profile (index + 1)).side side).velocity) / 2 * p.samplePeriod := by
  have hmean : ∀ (before : Segment ℝ) (velocity : ℝ), (p.nextSegment before velocity).position =
      before.position + (before.velocity + velocity) / 2 * p.samplePeriod := by
    intro before velocity
    change before.position + 0.5 * (before.velocity + velocity) * p.samplePeriod = _
    ring
  cases side <;> exact hmean _ _

theorem sample_middle_velocity (index : Nat) :
    (p.sample table profile index).middle.velocity = p.speed profile index :=
  mean_of_sides (p.sample_velocity table profile index)

theorem sample_zero_middle_acceleration :
    (p.sample table profile 0).middle.acceleration = (profile.motionAt 0).acceleration :=
  mean_of_sides (p.sample_zero_acceleration table profile)

theorem sample_succ_middle_acceleration (index : Nat) :
    (p.sample table profile (index + 1)).middle.acceleration =
      (p.speed profile (index + 1) - p.speed profile index) / p.samplePeriod :=
  mean_of_sides (p.sample_succ_acceleration table profile index)

theorem sample_zero_middle_position : (p.sample table profile 0).middle.position = 0 := by
  have hleft := p.sample_zero_position table profile .left
  have hright := p.sample_zero_position table profile .right
  simp only [Sample.side] at hleft hright
  rw [Sample.middle, hleft, hright]
  norm_num

/-- How far the middle moves does not depend on the curvature. -/
theorem sample_succ_middle_position (index : Nat) :
    (p.sample table profile (index + 1)).middle.position =
      (p.sample table profile index).middle.position +
        (p.speed profile index + p.speed profile (index + 1)) / 2 * p.samplePeriod := by
  have hbefore := p.sample_middle_velocity table profile index
  have hnow := p.sample_middle_velocity table profile (index + 1)
  have hleft := p.sample_succ_position table profile index .left
  have hright := p.sample_succ_position table profile index .right
  simp only [Sample.side] at hleft hright
  rw [← hbefore, ← hnow]
  simp only [Sample.middle]
  rw [hleft, hright]
  ring

end Planner

end SkidSteer
