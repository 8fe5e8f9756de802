import SkidSteer.Proofs.Binary64.Operations

namespace SkidSteer.Binary64

open Float.Model Float.Model.UnpackedFloat Scalar

/-- One in the last place of half a turn. -/
def lastOfPi : ℚ := 2 ^ (-51 : ℤ)

theorem lastOfPi_pos : 0 < lastOfPi := by norm_num [lastOfPi]

theorem value_pi : value pi = 0x1921fb54442d18 * lastOfPi := by
  have hunpack : (pi : Float).toModel.unpack =
      .finite .positive 0x1921fb54442d18 (-51) (by decide) := rfl
  rw [value_eq_exact, hunpack, exact_finite, Sign.apply, lastOfPi]
  norm_num

theorem value_turn : value (pi + pi) = 2 * value pi := by
  have hunpack : (pi + pi : Float).toModel.unpack =
      .finite .positive 0x1921fb54442d18 (-50) (by decide) := rfl
  rw [value_pi, value_eq_exact, hunpack, exact_finite, Sign.apply, lastOfPi]
  norm_num

theorem isFinite_pi : (pi : Float).isFinite = true := rfl

theorem isFinite_turn : (pi + pi : Float).isFinite = true := rfl

/-- Below a number of 53 digits the next representable one is a unit lower. -/
theorem Representable.le_pred {v : ℚ} (h : Representable v) {n : ℤ} {t : ℤ} (hn : 2 ^ 52 < n)
    (hlt : v < n * 2 ^ t) : v ≤ (n - 1) * 2 ^ t := by
  have hunit : (0 : ℚ) < 2 ^ t := zpow_pos two_pos t
  rcases h.multiple_or_small t with ⟨k, rfl⟩ | ⟨-, hsmall⟩
  · have hk : k < n := by exact_mod_cast lt_of_mul_lt_mul_right hlt hunit.le
    have hcast : (k : ℚ) ≤ n - 1 := by exact_mod_cast Int.le_sub_one_of_lt hk
    gcongr
  · have hcast : (2 : ℚ) ^ 52 ≤ n - 1 := by exact_mod_cast Int.le_sub_one_of_lt hn
    calc v ≤ 2 ^ 52 * 2 ^ t := (lt_of_le_of_lt (le_abs_self v) hsmall).le
      _ ≤ (n - 1) * 2 ^ t := by gcongr

theorem representable_lastOfPi {n : ℤ} (h : |n| < 2 ^ 53) : Representable (n * lastOfPi) :=
  ⟨n, -51, h, by norm_num, rfl⟩

theorem value_pi_bounds : 3 < value pi ∧ value pi < 4 := by
  rw [value_pi, lastOfPi]
  norm_num

theorem value_turn_ne_zero : value (pi + pi) ≠ 0 := by
  rw [value_turn]
  linarith [value_pi_bounds.1]

theorem value_zero : value 0.0 = 0 := by
  rw [value_eq_exact, unpack_zero, exact_zero]

variable {angle x y : Float}

/-- Half a turn is added to any finite angle, and the sum is finite. -/
theorem value_add_pi (h : angle.isFinite = true) : (angle + pi).isFinite = true ∧
    RoundsTo (value angle + value pi) (value (angle + pi)) := by
  apply value_add h isFinite_pi
  obtain ⟨hlow, hhigh⟩ := value_pi_bounds
  have hlargest := abs_value_le h
  have hpower : (8 : ℚ) ≤ 2 ^ (971 : ℤ) := by
    calc (8 : ℚ) = 2 ^ (3 : ℤ) := by norm_num
      _ ≤ 2 ^ (971 : ℤ) := zpow_le_zpow_right₀ one_le_two (by decide)
  have hsum := abs_add_le (value angle) (value pi)
  rw [abs_of_pos (by linarith : 0 < value pi)] at hsum ⊢
  generalize (2 : ℚ) ^ (971 : ℤ) = gap at hlargest hpower
  linarith

theorem endless_large : 16 < endless := by
  rw [endless, show (16 : ℚ) = 2 ^ 4 by norm_num]
  exact pow_lt_pow_right₀ one_lt_two (by decide)

/-- A remainder and a whole turn make a number in the turn, which is rounded to the end of it only
from just below zero. -/
theorem value_add_turn (h : x.isFinite = true) (hlow : -(2 * value pi) < value x)
    (hneg : value x < 0) :
    (x + (pi + pi)).isFinite = true ∧ 0 ≤ value (x + (pi + pi)) ∧
      value (x + (pi + pi)) ≤ 2 * value pi ∧
      (value (x + (pi + pi)) = 2 * value pi → -lastOfPi ≤ value x) := by
  obtain ⟨hthree, hfour⟩ := value_pi_bounds
  have hsum : |value (pi + pi)| + |value x + value (pi + pi)| < endless := by
    have hlarge := endless_large
    rw [value_turn, abs_of_pos (by linarith), abs_of_pos (by linarith)]
    linarith
  obtain ⟨hfinite, hrounds⟩ := value_add h isFinite_turn hsum
  rw [value_turn] at hrounds
  have hturn : Representable (2 * value pi) := by
    rw [← value_turn]
    exact value_representable isFinite_turn
  refine ⟨hfinite, hrounds.ge representable_zero (by linarith), hrounds.le hturn (by linarith),
    fun hfull => ?_⟩
  -- the number next below a whole turn is no nearer
  have hbelow : Representable (2 * value pi - 2 * lastOfPi) := by
    refine ⟨0x1921fb54442d17, -50, by norm_num, by norm_num, ?_⟩
    rw [value_pi, lastOfPi]
    norm_num
  have hnear := hrounds.nearest _ hbelow
  rw [hfull, show 2 * value pi - (value x + 2 * value pi) = -value x by ring,
    abs_of_pos (by linarith : 0 < -value x),
    show 2 * value pi - 2 * lastOfPi - (value x + 2 * value pi) = -(value x + 2 * lastOfPi) by ring,
    abs_neg] at hnear
  have hunit := lastOfPi_pos
  rcases abs_choice (value x + 2 * lastOfPi) with habs | habs <;> linarith

/-- The remainder that is not negative may reach a whole turn, but only from just below zero. -/
theorem value_leastResidue (h : x.isFinite = true) :
    (leastResidue x (pi + pi)).isFinite = true ∧ 0 ≤ value (leastResidue x (pi + pi)) ∧
      value (leastResidue x (pi + pi)) ≤ 2 * value pi ∧
      (value (leastResidue x (pi + pi)) = 2 * value pi →
        -lastOfPi ≤ value (remainder x (pi + pi)) ∧ value (remainder x (pi + pi)) < 0) := by
  obtain ⟨hthree, hfour⟩ := value_pi_bounds
  obtain ⟨hfinite, hsmall, -⟩ := value_remainder h isFinite_turn value_turn_ne_zero
  rw [value_turn, abs_of_pos (by linarith : 0 < 2 * value pi)] at hsmall
  obtain ⟨hlow, hhigh⟩ := abs_lt.1 hsmall
  have hnegative : remainder x (pi + pi) < 0.0 ↔ value (remainder x (pi + pi)) < 0 := by
    rw [lt_iff_value hfinite rfl, value_zero]
  by_cases hneg : value (remainder x (pi + pi)) < 0
  · have hadded : leastResidue x (pi + pi) = remainder x (pi + pi) + (pi + pi) :=
      if_pos (hnegative.2 hneg)
    obtain ⟨hsum, hpos, hend, hfull⟩ := value_add_turn hfinite hlow hneg
    rw [hadded]
    exact ⟨hsum, hpos, hend, fun h => ⟨hfull h, hneg⟩⟩
  · have hsame : leastResidue x (pi + pi) = remainder x (pi + pi) := if_neg (mt hnegative.1 hneg)
    rw [hsame]
    exact ⟨hfinite, le_of_not_gt hneg, hhigh.le, fun h => absurd h hhigh.ne⟩

/-- Half a turn is taken off again, without leaving the turn; its end is reached from a whole turn
only. -/
theorem value_sub_pi (h : y.isFinite = true) (hpos : 0 ≤ value y) (hend : value y ≤ 2 * value pi) :
    (y - pi).isFinite = true ∧ -value pi ≤ value (y - pi) ∧ value (y - pi) ≤ value pi ∧
      (value (y - pi) < value pi ↔ value y ≠ 2 * value pi) := by
  obtain ⟨hthree, hfour⟩ := value_pi_bounds
  have hunit := lastOfPi_pos
  have hpi : Representable (value pi) := value_representable isFinite_pi
  have hsum : |value pi| + |value y - value pi| < endless := by
    have hlarge := endless_large
    have hdistance : |value y - value pi| ≤ value pi := abs_le.2 ⟨by linarith, by linarith⟩
    rw [abs_of_pos (by linarith : 0 < value pi)]
    linarith
  obtain ⟨hfinite, hrounds⟩ := value_sub h isFinite_pi hsum
  refine ⟨hfinite, hrounds.ge hpi.neg (by linarith), hrounds.le hpi (by linarith), ?_, ?_⟩
  · intro hlt hfull
    rw [hfull, two_mul, add_sub_cancel_right] at hrounds
    rw [hrounds.eq hpi] at hlt
    exact lt_irrefl _ hlt
  · intro hne
    have hturn : 2 * value pi = (0x1921fb54442d18 : ℤ) * 2 ^ (-50 : ℤ) := by
      rw [value_pi, lastOfPi]
      norm_num
    have hbefore : value y ≤ 2 * value pi - 2 * lastOfPi := by
      have hlast := (value_representable h).le_pred (by norm_num)
        (lt_of_lt_of_eq (lt_of_le_of_ne hend hne) hturn)
      rw [value_pi, lastOfPi]
      norm_num at hlast ⊢
      linarith
    -- The number next below a whole turn leaves a representable difference.
    have hbelow : Representable (value pi - 2 * lastOfPi) := by
      have hpred := representable_lastOfPi (n := 0x1921fb54442d16) (by norm_num)
      rw [value_pi, ← sub_mul]
      norm_num at hpred ⊢
      exact hpred
    have hle := hrounds.le hbelow (by linarith)
    linarith

/-- A remainder just below zero is the number itself: those that are larger than a turn have no
digits so low, and leave none. -/
theorem value_of_small_remainder (h : x.isFinite = true)
    (hlow : -lastOfPi ≤ value (remainder x (pi + pi))) (hneg : value (remainder x (pi + pi)) < 0) :
    value x = value (remainder x (pi + pi)) := by
  obtain ⟨hthree, hfour⟩ := value_pi_bounds
  have hunit := lastOfPi_pos
  obtain ⟨-, -, times, htimes⟩ := value_remainder h isFinite_turn value_turn_ne_zero
  rw [value_turn] at htimes
  rcases (value_representable h).multiple_or_small (-50) with ⟨k, hk⟩ | ⟨-, hsmall⟩
  -- A multiple of two last places has a remainder of that kind: zero, or not so small.
  · obtain ⟨rest, hrest⟩ : ∃ rest : ℤ, rest = k - times * 0x1921fb54442d18 := ⟨_, rfl⟩
    have hdouble : (2 : ℚ) ^ (-50 : ℤ) = 2 * lastOfPi := by norm_num [lastOfPi]
    have hmultiple : value (remainder x (pi + pi)) = rest * (2 * lastOfPi) := by
      rw [hk, hdouble, value_pi] at htimes
      rw [hrest]
      push_cast
      linarith
    rw [hmultiple] at hlow hneg
    have hbelow : (rest : ℚ) < 0 := neg_of_mul_neg_left hneg (by linarith)
    have hwhole : rest < 0 := by exact_mod_cast hbelow
    have hlast : (rest : ℚ) ≤ -1 := by exact_mod_cast Int.le_sub_one_of_lt hwhole
    have hfar : rest * (2 * lastOfPi) ≤ -1 * (2 * lastOfPi) := by gcongr
    linarith
  · have hfew : |value x| < 4 := by
      norm_num at hsmall
      exact hsmall
    obtain ⟨habove, hbelow⟩ := abs_lt.1 hfew
    have htiny : lastOfPi < 1 := by norm_num [lastOfPi]
    -- Otherwise the number is below four, and no whole turn can have been taken off.
    rcases lt_trichotomy times 0 with hlt | rfl | hgt
    · have hlast : (times : ℚ) ≤ -1 := by exact_mod_cast Int.le_sub_one_of_lt hlt
      have hfar : times * (2 * value pi) ≤ -1 * (2 * value pi) := by gcongr
      linarith
    · rw [Int.cast_zero, zero_mul, zero_add] at htimes
      exact htimes
    · have hfirst : (1 : ℚ) ≤ times := by exact_mod_cast hgt
      have hfar : 1 * (2 * value pi) ≤ times * (2 * value pi) := by gcongr
      linarith

/-- The number next to minus half a turn, outside the turn. -/
def besideHalfTurn : Float := Float.ofBits 0xc00921fb54442d19

theorem value_besideHalfTurn : value besideHalfTurn = -(value pi + lastOfPi) := by
  have hunpack : besideHalfTurn.toModel.unpack =
      .finite .negative 0x1921fb54442d19 (-51) (by decide) := rfl
  rw [value_pi, value_eq_exact, hunpack, exact_finite, Sign.apply, lastOfPi]
  norm_num

/-- Half a turn makes a number just below zero of no other one. -/
theorem eq_besideHalfTurn (h : angle.isFinite = true) (hlow : -lastOfPi ≤ value (angle + pi))
    (hneg : value (angle + pi) < 0) : angle = besideHalfTurn := by
  obtain ⟨hthree, hfour⟩ := value_pi_bounds
  have hunit := lastOfPi_pos
  obtain ⟨-, hrounds⟩ := value_add_pi h
  have hsum : value angle + value pi < 0 := by
    by_contra hpos
    exact absurd (hrounds.ge representable_zero (le_of_not_gt hpos)) (not_le_of_gt hneg)
  rcases (value_representable h).multiple_or_small (-51) with ⟨k, hk⟩ | ⟨-, hsmall⟩
  · change value angle = k * lastOfPi at hk
    -- Counted in last places of half a turn, the angle is next beyond minus half a turn.
    have houtside : k ≤ -0x1921fb54442d19 := by
      rw [hk, value_pi, ← add_mul] at hsum
      have hbelow := neg_of_mul_neg_left hsum hunit.le
      have hwhole : k + 0x1921fb54442d18 < 0 := by exact_mod_cast hbelow
      omega
    have hinside : -0x1921fb54442d1a < k := by
      by_contra hfar
      have hcast : (k : ℚ) ≤ -0x1921fb54442d1a := by exact_mod_cast le_of_not_gt hfar
      have hle : value angle + value pi ≤ (-2 : ℤ) * lastOfPi := by
        have hproduct : k * lastOfPi ≤ -0x1921fb54442d1a * lastOfPi := by gcongr
        rw [hk, value_pi]
        push_cast
        linarith
      have htwo := hrounds.le (representable_lastOfPi (n := -2) (by norm_num)) hle
      push_cast at htwo
      linarith
    have hbeside : k = -0x1921fb54442d19 := by omega
    have hvalue : value angle = value besideHalfTurn := by
      rw [hk, hbeside, value_besideHalfTurn, value_pi]
      push_cast
      ring
    exact eq_of_value_eq h rfl hvalue (by linarith)
  · have hfew : |value angle| < 2 := by
      norm_num at hsmall
      exact hsmall
    linarith [(abs_lt.1 hfew).1]

/-- A wrapped angle is in the half-open turn around zero, but for one angle, whose wrapped one is
the end of it. -/
theorem wrapAngle_in_turn_iff (h : angle.isFinite = true) :
    -pi ≤ wrapAngle angle ∧ wrapAngle angle ≤ pi ∧
      (wrapAngle angle < pi ↔ angle ≠ besideHalfTurn) := by
  obtain ⟨hx, -⟩ := value_add_pi h
  obtain ⟨hy, hpos, hend, hfull⟩ := value_leastResidue hx
  obtain ⟨hw, hlow, hhigh, hinside⟩ := value_sub_pi hy hpos hend
  unfold wrapAngle
  rw [le_iff_value rfl hw, le_iff_value hw isFinite_pi, lt_iff_value hw isFinite_pi, value_neg]
  refine ⟨hlow, hhigh, ?_⟩
  rw [hinside]
  constructor
  · rintro hne rfl
    rw [show leastResidue (besideHalfTurn + pi) (pi + pi) = pi + pi from rfl] at hne
    exact hne value_turn
  · intro hother hturn
    obtain ⟨hsmall, hneg⟩ := hfull hturn
    have hsame := value_of_small_remainder hx hsmall hneg
    rw [← hsame] at hsmall hneg
    exact hother (eq_besideHalfTurn h hsmall hneg)

theorem wrapAngle_of_one :
    (1.0 : Float).isFinite = true ∧
      -pi ≤ wrapAngle (1.0 : Float) ∧ wrapAngle (1.0 : Float) < pi := by
  have hfinite : (1.0 : Float).isFinite = true := rfl
  have hother : (1.0 : Float) ≠ besideHalfTurn := by decide
  obtain ⟨hlow, -, hinside⟩ := wrapAngle_in_turn_iff hfinite
  exact ⟨hfinite, hlow, hinside.2 hother⟩

/-- The number next to minus half a turn is wrapped to half a turn, which is not in the turn. -/
theorem wrapAngle_of_besideHalfTurn :
    besideHalfTurn.isFinite = true ∧ wrapAngle besideHalfTurn = pi ∧
      ¬(-pi ≤ wrapAngle besideHalfTurn ∧ wrapAngle besideHalfTurn < pi) := by
  have hend : wrapAngle besideHalfTurn = pi := rfl
  refine ⟨rfl, hend, fun h => ?_⟩
  rw [hend] at h
  exact absurd h.2 (by decide)

end SkidSteer.Binary64
