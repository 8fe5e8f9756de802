import SkidSteer.Proofs.Planning.Symmetry
import SkidSteer.Proofs.Planning.Curves

namespace SkidSteer

namespace Spline

variable {segment : Nat} {start finish : Waypoint ℝ} {heading angle : ℝ} {chord : ℂ}
  {waypoints : List (Waypoint ℝ)} {e : PlanError ℝ}

/-- The angle from a chord to a heading: of those that differ by whole turns, the one in the
half-open turn around zero. -/
structure Deviates (heading : ℝ) (chord : ℂ) (angle : ℝ) : Prop where
  low : -Real.pi ≤ angle
  high : angle < Real.pi
  congr : (angle : Real.Angle) = (heading - chord.arg : ℝ)

/-- Not even some whole turns bring a heading close to the direction of a chord. -/
def Across (heading : ℝ) (chord : ℂ) : Prop :=
  ∀ angle : ℝ, (angle : Real.Angle) = (heading - chord.arg : ℝ) → largestHeadingError < |angle|

theorem deviates_iff : Deviates heading chord angle ↔ angle = headingError heading chord := by
  constructor
  · intro h
    rw [headingError, ← Scalar.wrapAngle_congr h.congr, Scalar.wrapAngle_of_mem h.low h.high]
  · rintro rfl
    obtain ⟨hlow, hhigh⟩ := Scalar.wrapAngle_mem (heading - chord.arg)
    exact ⟨hlow, hhigh, Scalar.coe_wrapAngle _⟩

/-- Whole turns make no angle of the turn around zero smaller. -/
theorem abs_le_abs_of_coe_eq {other : ℝ} (hlow : -Real.pi ≤ angle) (hhigh : angle < Real.pi)
    (hcongr : (other : Real.Angle) = angle) : |angle| ≤ |other| := by
  obtain ⟨turns, hturns⟩ := Real.Angle.angle_eq_iff_two_pi_dvd_sub.1 hcongr
  have habs : |angle| ≤ Real.pi := abs_le.2 ⟨hlow, hhigh.le⟩
  rcases eq_or_ne turns 0 with rfl | hnone
  · rw [Int.cast_zero, mul_zero, sub_eq_zero] at hturns
    rw [hturns]
  · have hone : (1 : ℝ) ≤ |(turns : ℝ)| := by exact_mod_cast Int.one_le_abs hnone
    have hturn : 2 * Real.pi ≤ |other - angle| := by
      rw [hturns, abs_mul, abs_of_pos Real.two_pi_pos]
      exact le_mul_of_one_le_right Real.two_pi_pos.le hone
    have hdiff := abs_sub other angle
    linarith

/-- A heading is across a chord just where the angle to it is too large. -/
theorem across_iff : Across heading chord ↔ largestHeadingError < |headingError heading chord| := by
  obtain ⟨hlow, hhigh, hcongr⟩ := deviates_iff.2 (rfl : headingError heading chord = _)
  constructor
  · intro h
    exact h _ hcongr
  · intro h other hother
    exact h.trans_le (abs_le_abs_of_coe_eq hlow hhigh (hother.trans hcongr.symm))

/-- A heading that is not across a chord does not point backwards along it, or square to it. -/
theorem cos_pos_of_not_across (h : ¬Across heading chord) :
    0 < Real.cos (heading - chord.arg) := by
  have hquarter : (largestHeadingError : ℝ) < Real.pi / 2 := by
    simp only [largestHeadingError, Scalar.pi_real]
    norm_num
  rw [across_iff, not_lt] at h
  obtain ⟨hlow, hhigh⟩ := abs_lt.1 (h.trans_lt hquarter)
  rw [← Real.Angle.cos_coe, ← Scalar.coe_wrapAngle, Real.Angle.cos_coe]
  exact Real.cos_pos_of_mem_Ioo ⟨hlow, hhigh⟩

/-- There is no curve from one waypoint to another. -/
def Faulty (start finish : Waypoint ℝ) : Prop :=
  ‖span start finish‖ < shortestChord ∨ Across start.heading (span start finish) ∨
    Across finish.heading (span start finish)

/-- What is reported of two waypoints, the first of which is numbered `segment`: that they are at
the same place, or else how far the first heading that is across the chord is from it. -/
inductive Fault (segment : Nat) (start finish : Waypoint ℝ) : PlanError ℝ → Prop
  | coincident (hnear : ‖span start finish‖ < shortestChord) :
    Fault segment start finish (.coincidentWaypoints segment)
  | leaving {angle : ℝ} (hfar : ¬‖span start finish‖ < shortestChord)
    (hstart : Across start.heading (span start finish))
    (hangle : Deviates start.heading (span start finish) angle) :
    Fault segment start finish (.infeasibleSegment segment angle)
  | arriving {angle : ℝ} (hfar : ¬‖span start finish‖ < shortestChord)
    (hstart : ¬Across start.heading (span start finish))
    (hfinish : Across finish.heading (span start finish))
    (hangle : Deviates finish.heading (span start finish) angle) :
    Fault segment start finish (.infeasibleSegment segment angle)

theorem fit_eq_error_iff :
    fit segment start finish = .error e ↔ Fault segment start finish e := by
  rw [fit_real]
  constructor
  · intro h
    split at h
    · rename_i hnear
      cases h
      exact .coincident hnear
    · rename_i hfar
      split at h
      · rename_i hstart
        cases h
        exact .leaving hfar (across_iff.2 hstart) (deviates_iff.2 rfl)
      · rename_i hstart
        rw [← across_iff] at hstart
        split at h
        · rename_i hfinish
          cases h
          exact .arriving hfar hstart (across_iff.2 hfinish) (deviates_iff.2 rfl)
        · cases h
  · intro h
    cases h with
    | coincident hnear => rw [if_pos hnear]
    | leaving hfar hstart hangle =>
      rw [if_neg hfar, if_pos (across_iff.1 hstart), deviates_iff.1 hangle]
    | arriving hfar hstart hfinish hangle =>
      rw [if_neg hfar, if_neg (mt across_iff.2 hstart), if_pos (across_iff.1 hfinish),
        deviates_iff.1 hangle]

theorem exists_fit_iff :
    (∃ spline, fit segment start finish = .ok spline) ↔ ¬Faulty start finish := by
  rw [fit_real, Faulty, across_iff, across_iff]
  split_ifs <;> simp_all

theorem exists_fault_iff : (∃ e, Fault segment start finish e) ↔ Faulty start finish := by
  have hfit : (∃ spline, fit segment start finish = .ok spline) ↔ ¬Faulty start finish :=
    exists_fit_iff
  rw [← not_iff_not, ← hfit]
  simp only [← fit_eq_error_iff]
  cases fit segment start finish <;> simp

/-- The first two neighbours that have no curve are reported. -/
theorem fitAll_eq_error_iff : fitAll waypoints = .error e ↔
    ∃ i start finish, Waypoint.Neighbours waypoints i start finish ∧ Fault i start finish e ∧
      ∀ j < i, ∀ start finish, Waypoint.Neighbours waypoints j start finish →
        ¬Faulty start finish := by
  simp only [fitAll, fitFrom_eq_error_iff, exists_fit_iff, fit_eq_error_iff, Nat.zero_add]

/-- There are no curves just where two neighbours have none. -/
theorem exists_fitAll_error_iff : (∃ e, fitAll waypoints = .error e) ↔
    ∃ i start finish, Waypoint.Neighbours waypoints i start finish ∧ Faulty start finish := by
  constructor
  · rintro ⟨e, he⟩
    obtain ⟨i, start, finish, hn, hfault, -⟩ := fitAll_eq_error_iff.1 he
    exact ⟨i, start, finish, hn, exists_fault_iff.1 ⟨e, hfault⟩⟩
  · rintro ⟨i, start, finish, hn, hfaulty⟩
    cases h : fitAll waypoints with
    | error e => exact ⟨e, rfl⟩
    | ok splines =>
      obtain ⟨spline, -, hfit⟩ := fit_of_neighbours h hn
      exact absurd hfaulty (exists_fit_iff.1 ⟨spline, hfit⟩)

end Spline

end SkidSteer
