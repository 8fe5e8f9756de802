import SkidSteer.Proofs.Planning.Reals

namespace SkidSteer

namespace Scalar

/-- A remainder differs from the number by a whole multiple, and is smaller than what is divided
by. -/
theorem remainder_real {m : ℝ} (hm : 0 < m) (x : ℝ) :
    |remainder x m| < m ∧ ∃ n : ℤ, x = remainder x m + n * m := by
  have hwhole : x / m * m = x := div_mul_cancel₀ _ hm.ne'
  change |x - m * ((if 0 ≤ x / m then ⌊x / m⌋ else ⌈x / m⌉ : ℤ) : ℝ)| < m ∧ ∃ n : ℤ,
    x = x - m * ((if 0 ≤ x / m then ⌊x / m⌋ else ⌈x / m⌉ : ℤ) : ℝ) + n * m
  refine ⟨?_, _, by rw [mul_comm m, sub_add_cancel]⟩
  split_ifs
  · have hlow := mul_le_mul_of_nonneg_right (Int.floor_le (x / m)) hm.le
    have hhigh := mul_lt_mul_of_pos_right (Int.lt_floor_add_one (x / m)) hm
    rw [hwhole] at hlow hhigh
    exact abs_lt.2 ⟨by linarith, by linarith⟩
  · have hlow := mul_lt_mul_of_pos_right (Int.ceil_lt_add_one (x / m)) hm
    have hhigh := mul_le_mul_of_nonneg_right (Int.le_ceil (x / m)) hm.le
    rw [hwhole] at hhigh
    rw [add_mul, hwhole] at hlow
    exact abs_lt.2 ⟨by linarith, by linarith⟩

theorem leastResidue_real {m : ℝ} (hm : 0 < m) (x : ℝ) :
    leastResidue x m ∈ Set.Ico 0 m ∧ ∃ n : ℤ, x = leastResidue x m + n * m := by
  obtain ⟨hsmall, n, hn⟩ := remainder_real hm x
  obtain ⟨hlow, hhigh⟩ := abs_lt.1 hsmall
  have hresidue : leastResidue x m =
      if remainder x m < 0 then remainder x m + m else remainder x m := by
    simp only [leastResidue, abs_real, abs_of_pos hm]
    norm_num
  rw [hresidue]
  split_ifs with hneg
  · refine ⟨⟨by linarith, by linarith⟩, n - 1, ?_⟩
    push_cast
    linarith
  · exact ⟨⟨not_lt.1 hneg, hhigh⟩, n, hn⟩

theorem wrapAngle_eq_toIcoMod (angle : ℝ) :
    wrapAngle angle = toIcoMod Real.two_pi_pos (-Real.pi) angle := by
  have hturn : (Scalar.pi + Scalar.pi : ℝ) = 2 * Real.pi := (two_mul _).symm
  obtain ⟨⟨hlow, hhigh⟩, n, hn⟩ := leastResidue_real Real.two_pi_pos (angle + Real.pi)
  symm
  rw [toIcoMod_eq_iff, wrapAngle, hturn, pi_real]
  refine ⟨⟨by linarith, by linarith⟩, n, ?_⟩
  rw [zsmul_eq_mul]
  linarith

theorem wrapAngle_mem (angle : ℝ) : -Real.pi ≤ wrapAngle angle ∧ wrapAngle angle < Real.pi := by
  obtain ⟨hlow, hhigh⟩ := toIcoMod_mem_Ico Real.two_pi_pos (-Real.pi) angle
  rw [wrapAngle_eq_toIcoMod]
  exact ⟨hlow, by linarith⟩

/-- An angle within the half-open turn around zero is wrapped to itself. -/
theorem wrapAngle_of_mem {angle : ℝ} (hlow : -Real.pi ≤ angle) (hhigh : angle < Real.pi) :
    wrapAngle angle = angle := by
  rw [wrapAngle_eq_toIcoMod, toIcoMod_eq_self]
  exact ⟨hlow, by linarith⟩

/-- Angles that differ by whole turns are wrapped to the same. -/
theorem wrapAngle_congr {x y : ℝ} (h : (x : Real.Angle) = y) : wrapAngle x = wrapAngle y := by
  obtain ⟨turns, hturns⟩ := Real.Angle.angle_eq_iff_two_pi_dvd_sub.1 h
  rw [wrapAngle_eq_toIcoMod, wrapAngle_eq_toIcoMod, eq_comm, toIcoMod_eq_toIcoMod]
  exact ⟨turns, by rw [hturns, zsmul_eq_mul, mul_comm]⟩

/-- Wrapping changes an angle by whole turns only. -/
theorem coe_wrapAngle (angle : ℝ) : ((wrapAngle angle : ℝ) : Real.Angle) = angle := by
  rw [wrapAngle_eq_toIcoMod]
  exact Real.Angle.coe_toIcoMod angle (-Real.pi)

theorem tan_wrapAngle (angle : ℝ) : Real.tan (wrapAngle angle) = Real.tan angle := by
  rw [← Real.Angle.tan_coe, coe_wrapAngle, Real.Angle.tan_coe]

/-- An angle to the other side is as large, also where that is half a turn. -/
theorem abs_wrapAngle_neg {angle : ℝ} (hlow : -Real.pi ≤ angle) (hhigh : angle < Real.pi) :
    |wrapAngle (-angle)| = |angle| := by
  rcases hlow.eq_or_lt with rfl | hlow
  · have hhalf : ((- -Real.pi : ℝ) : Real.Angle) = (-Real.pi : ℝ) := by
      rw [Real.Angle.coe_neg, Real.Angle.coe_neg, neg_neg, Real.Angle.neg_coe_pi]
    rw [wrapAngle_congr hhalf, wrapAngle_of_mem le_rfl hhigh]
  · rw [wrapAngle_of_mem (neg_le_neg hhigh.le) (by linarith), abs_neg]

end Scalar

end SkidSteer
