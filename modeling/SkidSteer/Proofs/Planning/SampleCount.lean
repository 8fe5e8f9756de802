import SkidSteer.Proofs.Binary64.Counts
import SkidSteer.Proofs.Planning.Curves
import SkidSteer.Proofs.Planning.Platform
import SkidSteer.Proofs.Planning.Steps

namespace SkidSteer

open Binary64

theorem Planner.unpack_mostSamples : (Float.ofNat mostSamples).toModel.unpack =
    .finite .positive (10000000 * 2 ^ 29) (-29) (by decide) := rfl

variable [Platform]

attribute [local instance] Platform.scalar

theorem Spline.fit_chord {segment : Nat} {start finish : Waypoint Float} {spline : Spline Float}
    (h : fit segment start finish = .ok spline) : ¬spline.chord < 0.0 := by
  rw [(eq_of_fit h).2]
  exact not_sqrt_lt_zero _

theorem Spline.fitFrom_chord {segment : Nat} {waypoints : List (Waypoint Float)}
    {splines : List (Spline Float)} (h : fitFrom segment waypoints = .ok splines) :
    ∀ spline ∈ splines, ¬spline.chord < 0.0 := by
  intro spline hs
  obtain ⟨number, start, finish, hfit⟩ := exists_fit_of_mem h spline hs
  exact fit_chord hfit

namespace CurvatureTable

theorem length_addSteps {spline : Spline Float} {width : Float} (hwidth : ¬width < 0.0)
    (more step : Nat) {distance : Float} {marks : Array (Mark Float)} (hd : ¬distance < 0.0)
    (hm : ¬length ⟨marks⟩ < 0.0) :
    ¬length ⟨addSteps spline width more step distance marks⟩ < 0.0 := by
  induction more generalizing step distance marks with
  | zero => exact hm
  | succ more ih =>
    have hnext : ¬distance + Scalar.sqrt (1.0 + Scalar.square (spline.slope
        ((Scalar.ofCount step + 0.5) * width))) * width < 0.0 :=
      not_add_lt_zero hd (not_mul_lt_zero (not_sqrt_lt_zero _) hwidth)
    apply ih
    · exact hnext
    · rw [length_push]
      exact hnext

theorem length_addSpline {t : CurvatureTable Float} {spline : Spline Float}
    (ht : ¬t.length < 0.0) (hs : ¬spline.chord < 0.0) : ¬(t.addSpline spline).length < 0.0 := by
  have hsteps : (0.0 : Float) < Float.ofNat stepsPerSpline := by decide
  apply length_addSteps (not_div_lt_zero hs (unsigned_of_lt hsteps)) _ _ ht
  rw [length_push]
  exact ht

theorem length_ofSplines {splines : List (Spline Float)}
    (h : ∀ spline ∈ splines, ¬spline.chord < 0.0) : ¬(ofSplines splines).length < 0.0 := by
  have hzero : ¬(0.0 : Float) < 0.0 := by decide
  suffices ∀ t : CurvatureTable Float, ¬t.length < 0.0 →
      ¬(splines.foldl addSpline t).length < 0.0 from this empty hzero
  induction splines with
  | nil => exact fun t ht => ht
  | cons spline rest ih =>
    obtain ⟨hs, hrest⟩ := List.forall_mem_cons.1 h
    intro t ht
    rw [List.foldl_cons]
    exact ih hrest (t.addSpline spline) (length_addSpline ht hs)

end CurvatureTable

theorem Limits.positive_of_isValid {limits : Limits Float} (h : limits.isValid = true) :
    0.0 < limits.velocity ∧ 0.0 < limits.acceleration := by
  simp only [isValid, Bool.and_eq_true] at h
  exact ⟨(Scalar.isPositive_iff.1 h.1.1).2, (Scalar.isPositive_iff.1 h.1.2).2⟩

theorem VelocityProfile.duration_ofDistance {distance : Float} {limits : Limits Float}
    (hv : limits.isValid = true) (hd : ¬distance < 0.0) :
    ¬(ofDistance distance limits).duration < 0.0 := by
  obtain ⟨hvelocity, hacceleration⟩ := Limits.positive_of_isValid hv
  have htwo : (0.0 : Float) < 2.0 := by decide
  have hramp : ¬Scalar.square limits.velocity / (2.0 * limits.acceleration) < 0.0 :=
    not_div_lt_zero
      (not_mul_lt_zero (not_lt_zero_of_lt hvelocity) (not_lt_zero_of_lt hvelocity))
      (unsigned_mul (unsigned_of_lt htwo) (unsigned_of_lt hacceleration))
  have hramps := not_mul_lt_zero (not_lt_zero_of_lt htwo) hramp
  unfold ofDistance duration
  simp only
  split
  · have hpeak := not_sqrt_lt_zero (distance * limits.acceleration)
    have hramptime := not_div_lt_zero hpeak (unsigned_of_lt hacceleration)
    have hzero : ¬(0.0 : Float) < 0.0 := by decide
    exact not_add_lt_zero (not_mul_lt_zero (not_lt_zero_of_lt htwo) hramptime) hzero
  · rename_i hlong
    have hramptime :=
      not_div_lt_zero (not_lt_zero_of_lt hvelocity) (unsigned_of_lt hacceleration)
    have hcruise :=
      not_div_lt_zero (not_sub_lt_zero hd hramps hlong) (unsigned_of_lt hvelocity)
    exact not_add_lt_zero (not_mul_lt_zero (not_lt_zero_of_lt htwo) hramptime) hcruise

namespace Planner

variable {p : Planner Float}

/-- Along a profile that takes some time there is a sample, and not more than the most. -/
theorem size_follow {table : CurvatureTable Float} {profile : VelocityProfile Float}
    {t : Trajectory Float} (hperiod : 0.0 < p.samplePeriod) (hduration : ¬profile.duration < 0.0)
    (h : p.follow table profile = .ok t) : 1 ≤ t.size ∧ t.size ≤ mostSamples := by
  obtain ⟨hfinite, hmost, -, -⟩ := follow_eq_ok_iff.1 h
  have hperiods := not_ceiling_lt_zero (not_div_lt_zero hduration (unsigned_of_lt hperiod))
  have hone : ¬(1.0 : Float) < 0.0 := by decide
  have hbelow : ¬p.sampleCount profile < 0.0 := not_add_lt_zero hperiods hone
  have hleast : 1 ≤ (p.sampleCount profile).toUInt64.toNat :=
    one_le_count_add_one hperiods hfinite
  have hten :=
    count_le_of_not_lt unpack_mostSamples (by decide) (by decide) hbelow hfinite hmost
  rw [size_of_follow h]
  exact ⟨hleast, hten⟩

/-- A plan for fewer than two waypoints is empty; any other has a sample, and not more than the
most. -/
theorem plan_cases {waypoints : List (Waypoint Float)} {limits : Limits Float} {plan : Plan Float}
    (h : p.plan waypoints limits = .ok plan) :
    waypoints.length < 2 ∧ plan = .empty ∨
      2 ≤ waypoints.length ∧ ∃ length t, plan = .path length waypoints.length t ∧
        1 ≤ t.size ∧ t.size ≤ mostSamples := by
  obtain ⟨hlimits, hperiod, rest⟩ := plan_eq h
  rcases Nat.lt_or_ge waypoints.length 2 with hfew | hmany
  · rcases rest with rfl | ⟨splines, t, hmany, -⟩
    · exact Or.inl ⟨hfew, rfl⟩
    · exact absurd hmany (Nat.not_le.2 hfew)
  · rcases rest with rfl | ⟨splines, t, -, hsplines, hfollow, rfl⟩
    · exact absurd h (plan_ne_empty hmany)
    · have hlength := CurvatureTable.length_ofSplines (Spline.fitFrom_chord hsplines)
      have hduration := VelocityProfile.duration_ofDistance hlimits hlength
      exact Or.inr ⟨hmany, _, t, rfl,
        size_follow (Scalar.isPositive_iff.1 hperiod).2 hduration hfollow⟩

end Planner

end SkidSteer
