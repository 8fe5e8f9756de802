import SkidSteer.Proofs.Binary64.Counts
import SkidSteer.Proofs.Binary64.NotNumbers

namespace SkidSteer.Binary64

open Float.Model Float.Model.UnpackedFloat

theorem log2_mul_two_pow {m : Nat} (pos : 0 < m) (zeros : Nat) :
    (m * 2 ^ zeros).log2 = m.log2 + zeros := by
  induction zeros with
  | zero => rw [Nat.pow_zero, Nat.mul_one, Nat.add_zero]
  | succ zeros ih =>
    rw [Nat.pow_succ', Nat.mul_left_comm, Nat.log2_two_mul (by positivity), ih, Nat.add_assoc]

/-- Zeros that are shifted out leave no trace. -/
theorem shiftRight_exact (m places : Nat) :
    (ExtendedMantissa.mk (m * 2 ^ places) false false) >>> places = ⟨m, false, false⟩ := by
  induction places generalizing m with
  | zero => simp [HShiftRight.hShiftRight, Nat.repeat]
  | succ places ih =>
    change ((ExtendedMantissa.mk (m * 2 ^ (places + 1)) false false) >>> places).shiftRightOne = _
    rw [Nat.pow_succ', ← Nat.mul_assoc, ih]
    simp [ExtendedMantissa.shiftRightOne]

/-- A significand in its place, with more zeros after it, is shifted back to its place. -/
theorem shiftToTargetExponent_exact {m : Nat} {e : Int} (pos : 0 < m) (digits : m < 2 ^ 53)
    (low : -1074 ≤ e) (place : 2 ^ 52 ≤ m ∨ e = -1074) (zeros : Nat) :
    shiftToTargetExponent .binary64 (m * 2 ^ zeros) (e - zeros) .exact =
      (⟨m, false, false⟩, e) := by
  have hlog := log2_mul_two_pow pos zeros
  have hfew : m.log2 ≤ 52 := Nat.lt_succ_iff.1 ((Nat.log2_lt pos.ne').2 digits)
  have hmany : 2 ^ 52 ≤ m → 52 ≤ m.log2 := (Nat.le_log2 pos.ne').2
  have hplaces : (Format.binary64.targetExponent
      (totalExponent (m * 2 ^ zeros) (e - zeros)) - (e - zeros)).toNat = zeros := by
    rw [targetExponent_eq, totalExponent, hlog]
    omega
  simp only [shiftToTargetExponent, shiftToExponent, hplaces, sub_add_cancel]
  rw [show ExtendedMantissa.ofMantissaAndAccuracy (m * 2 ^ zeros) .exact =
    ⟨m * 2 ^ zeros, false, false⟩ from rfl, shiftRight_exact]

theorem round_exact {m : Nat} {e : Int} (pos : 0 < m) (digits : m < 2 ^ 53) (low : -1074 ≤ e)
    (place : 2 ^ 52 ≤ m ∨ e = -1074) (s : Sign) (zeros : Nat) :
    roundWithAccuracy .binary64 s (m * 2 ^ zeros) (e - zeros) .exact = .finite s m e pos := by
  have hagain := shiftToTargetExponent_exact pos digits low place 0
  rw [Nat.pow_zero, Nat.mul_one, Nat.cast_zero, sub_zero] at hagain
  exact round_eq (shiftToTargetExponent_exact pos digits low place zeros) hagain pos s

/-- What reaches the smallest number keeps a digit. -/
theorem shiftToTargetExponent_pos {m : Nat} {e : Int} (h : 2 ^ (-1074 - e).toNat ≤ m)
    (a : Accuracy) :
    ∃ em t, shiftToTargetExponent .binary64 m e a = (em, t) ∧
      0 < em.mantissa ∧ em.mantissa < 2 ^ 53 ∧ -1074 ≤ t := by
  have hpos : m ≠ 0 := (Nat.lt_of_lt_of_le (by positivity) h).ne'
  obtain ⟨em, places, hshift, hplaces, hmantissa, hhigh⟩ := shiftToTargetExponent_eq m e a
  have hdigit : 2 ^ places ≤ m := by
    rw [hplaces]
    rcases max_choice (m.log2 - 52) (-1074 - e).toNat with hmax | hmax
    · rw [hmax]
      exact Nat.le_trans (Nat.pow_le_pow_right (by decide) (Nat.sub_le _ _)) (Nat.log2_self_le hpos)
    · rw [hmax]
      exact h
  refine ⟨em, _, hshift, ?_, hhigh, by omega⟩
  rw [hmantissa]
  exact Nat.div_pos hdigit (by positivity)

theorem round_pos {m : Nat} {e : Int} (h : 2 ^ (-1074 - e).toNat ≤ m) (s : Sign) (a : Accuracy) :
    ∃ r t pos, roundWithAccuracy .binary64 s m e a = .finite s r t pos ∧ r < 2 ^ 53 ∧
      -1074 ≤ t := by
  obtain ⟨em, t, hfirst, hlow, -, ht⟩ := shiftToTargetExponent_pos h a
  have hrounded : 2 ^ (-1074 - t).toNat ≤ em.roundedMantissa := by
    rw [show (-1074 - t).toNat = 0 by omega]
    exact Nat.le_trans hlow (roundedMantissa_bounds em).1
  obtain ⟨em', t', hsecond, hlow', hhigh', ht'⟩ := shiftToTargetExponent_pos hrounded .exact
  exact ⟨em'.mantissa, t', hlow', round_eq hfirst hsecond hlow' s, hhigh', ht'⟩

/-- A number of which there are digits is packed into one, or into an infinity. -/
theorem not_vanishes_pack {s : Sign} {m : Nat} {e : Int} {pos : 0 < m} (digits : m < 2 ^ 53)
    (low : -1074 ≤ e) : ¬Vanishes (Float.Model.pack (.finite s m e pos)).unpack := by
  by_cases high : e ≤ 971
  · by_cases hplace : 2 ^ 52 ≤ m
    · rw [unpack_pack (.finite s m e pos digits low high (Or.inl hplace))]
      exact id
    · have hshort : ¬m.log2 + 1 = Format.binary64.mantissaBits := by
        have := (Nat.log2_lt pos.ne').2 (Nat.lt_of_not_le hplace)
        rw [show Format.binary64.mantissaBits = 53 from rfl]
        omega
      have hsize : ¬2 ^ Format.binary64.exponentBits ≤ (e + Format.binary64.exponentBias +
          (Format.binary64.mantissaBitsWithoutImplicit : Int)).toNat + 1 := by
        rw [bias_eq, places_eq, show Format.binary64.exponentBits = 11 from rfl]
        omega
      have hne : BitVec.ofNat 52 m ≠ 0#52 := by
        intro h
        have hm := congrArg BitVec.toNat h
        rw [BitVec.toNat_ofNat] at hm
        exact pos.ne' ((Nat.mod_eq_of_lt (Nat.lt_of_not_le hplace)).symm.trans hm)
      change ¬Vanishes (UnpackedFloat.unpack .binary64
        (UnpackedFloat.pack .binary64 (.finite s m e pos)))
      rw [UnpackedFloat.pack]
      simp only
      rw [if_neg hsize, if_neg hshort, unpack_packComponents, if_neg (by decide), if_pos rfl,
        dif_neg hne]
      exact id
  · rw [pack_of_overflow (Int.lt_of_not_ge high), unpack_pack (.infinity s)]
    exact id

def doubled : UnpackedFloat → UnpackedFloat
  | .finite s m e pos =>
    if 2 ^ 52 ≤ m then .finite s m (e + 1) pos
    else .finite s (m * 2) e (Nat.mul_pos pos Nat.two_pos)
  | f => f

/-- A significand that is doubled comes to its place, with zeros after it. -/
theorem round_doubled {s : Sign} {m : Nat} {e : Int} {pos : 0 < m}
    (h : Fits (.finite s m e pos)) (zeros : Nat) :
    roundWithAccuracy .binary64 s (m * 2 ^ (zeros + 1)) (e - zeros) .exact =
      doubled (.finite s m e pos) := by
  cases h with
  | finite _ _ _ _ digits low high place =>
    rw [doubled]
    split
    · rename_i hplace
      have hexact := round_exact pos digits (e := e + 1) (by omega) (Or.inl hplace) s (zeros + 1)
      rwa [Nat.cast_add, Nat.cast_one, add_sub_add_right_eq_sub] at hexact
    · rename_i hplace
      have hexact := round_exact (m := m * 2) (e := e) (by omega) (by omega) low
        (Or.inr (place.resolve_left hplace)) s zeros
      rwa [Nat.mul_assoc, ← Nat.pow_succ'] at hexact

theorem mul_two_eq_doubled {f : UnpackedFloat} (h : Fits f) :
    f.mul .binary64 (.finite .positive (2 ^ 52) (-51) (by decide)) = doubled f := by
  cases f with
  | notANumber => rfl
  | infinity s | zero s => cases s <;> rfl
  | finite s m e pos =>
    have hsign : s * .positive = s := by cases s <;> rfl
    rw [← round_doubled h 51]
    simp only [UnpackedFloat.mul, hsign]
    rfl

theorem round_twice {s : Sign} {m : Nat} {e : Int} {pos : 0 < m} (h : Fits (.finite s m e pos)) :
    UnpackedFloat.round .binary64 s (m * 2) e = doubled (.finite s m e pos) := by
  have hdoubled := round_doubled h 0
  rw [Nat.zero_add, Nat.pow_one, Nat.cast_zero, sub_zero] at hdoubled
  cases h with
  | finite _ _ _ _ digits low high place =>
    have hlog : (m * 2).log2 = m.log2 + 1 := log2_mul_two_pow pos 1
    have hmany : 2 ^ 52 ≤ m → 52 ≤ m.log2 := (Nat.le_log2 pos.ne').2
    have hnone : (e - Format.binary64.targetExponent (totalExponent (m * 2) e)).toNat = 0 := by
      rw [targetExponent_eq, totalExponent, hlog]
      omega
    simp only [UnpackedFloat.round, decreaseExponent, hnone, Nat.shiftLeft_zero, Nat.cast_zero,
      sub_zero]
    exact hdoubled

theorem sub_neg_eq_doubled {f : UnpackedFloat} (h : Fits f) : f.sub .binary64 f.neg = doubled f := by
  cases f with
  | notANumber => rfl
  | infinity s | zero s => cases s <;> rfl
  | finite s m e pos =>
    rw [← round_twice h]
    simp only [UnpackedFloat.sub, UnpackedFloat.neg, decreaseExponent, min_self, Int.sub_self,
      Int.toNat_zero, Nat.shiftLeft_zero]
    cases s with
    | negative =>
      have hcompare : compare (-m - m : Int) 0 = .lt := Int.compare_eq_lt.2 (by omega)
      have htwice : (-(-m - m : Int)).toNat = m * 2 := by omega
      change UnpackedFloat.normalize .binary64 (-m - m) e .positive = _
      simp only [UnpackedFloat.normalize, hcompare, htwice]
    | positive =>
      have hcompare : compare (m - -m : Int) 0 = .gt := Int.compare_eq_gt.2 (by omega)
      have htwice : (m - -m : Int).toNat = m * 2 := by omega
      change UnpackedFloat.normalize .binary64 (m - -m) e .positive = _
      simp only [UnpackedFloat.normalize, hcompare, htwice]

/-- The least number whose double is too large, `2 ^ 1023`. -/
def endlessTwice : Float := Float.ofBits 0x7fe0000000000000

theorem unpack_endlessTwice :
    endlessTwice.toModel.unpack = .finite .positive (2 ^ 52) 971 (by decide) := rfl

theorem isFinite_doubled {f : UnpackedFloat} (h : Fits f) :
    (Float.Model.pack (doubled f)).unpack.isFinite = true ↔
      f.abs.compare endlessTwice.toModel.unpack = some .lt := by
  rw [unpack_endlessTwice]
  cases f with
  | notANumber => exact iff_of_false nofun nofun
  | infinity s => cases s <;> exact iff_of_false nofun nofun
  | zero s => cases s <;> exact iff_of_true rfl rfl
  | finite s m e pos =>
    cases h with
    | finite _ _ _ _ digits low high place =>
      rw [doubled]
      by_cases hplace : 2 ^ 52 ≤ m
      · rw [if_pos hplace]
        by_cases htop : e = 971
        · subst htop
          have hcompare : compare m (2 ^ 52) ≠ .lt := mt Nat.compare_eq_lt.1 (Nat.not_lt.2 hplace)
          rw [pack_of_overflow (by omega), unpack_pack (.infinity s)]
          exact iff_of_false nofun (by simpa [UnpackedFloat.abs, UnpackedFloat.compare] using hcompare)
        · rw [unpack_pack (.finite s m (e + 1) pos digits (by omega) (by omega) (Or.inl hplace))]
          have hcompare : compare e 971 = .lt := Int.compare_eq_lt.2 (by omega)
          exact iff_of_true rfl (by simp [UnpackedFloat.abs, UnpackedFloat.compare, hcompare])
      · have hleast : e = -1074 := place.resolve_left hplace
        subst hleast
        have hcompare : compare (-1074 : Int) 971 = .lt := by decide
        rw [if_neg hplace, unpack_pack (.finite s (m * 2) _ _ (by omega) le_rfl high (Or.inr rfl))]
        exact iff_of_true rfl (by simp [UnpackedFloat.abs, UnpackedFloat.compare, hcompare])

theorem not_vanishes_doubled {f : UnpackedFloat} (h : Fits f) (hne : ¬Vanishes f) :
    ¬Vanishes (Float.Model.pack (doubled f)).unpack := by
  cases h with
  | notANumber | zero s => exact absurd trivial hne
  | infinity s =>
    change ¬Vanishes (Float.Model.pack (.infinity s)).unpack
    rw [unpack_pack (.infinity s)]
    exact id
  | finite s m e pos digits low high place =>
    rw [doubled]
    split
    · exact not_vanishes_pack digits (by omega)
    · exact not_vanishes_pack (by omega) low

variable {x y : Float}

/-- A double is finite unless it is too large. -/
theorem isFinite_mul_two : (x * 2.0).isFinite = true ↔ x.abs < endlessTwice := by
  have hfits : Fits x.toModel.unpack := fits_unpack _
  rw [lt_iff, order, unpack_abs, ← isFinite_doubled hfits, ← mul_two_eq_doubled hfits]
  rfl

theorem isFinite_sub_neg (h : 0.0 < x) : (x - -x).isFinite = true ↔ x < endlessTwice := by
  have hfits : Fits x.toModel.unpack := fits_unpack _
  have habs : x.toModel.unpack.abs = x.toModel.unpack := by
    have hunsigned := unsigned_of_lt h
    cases hu : x.toModel.unpack with
    | notANumber => rfl
    | zero s | infinity s | finite s m e pos =>
      rw [hu] at hunsigned
      cases (hunsigned : s = .positive)
      rfl
  rw [lt_iff, order, ← habs, ← isFinite_doubled hfits, ← sub_neg_eq_doubled hfits, ← unpack_neg]
  rfl

theorem not_vanishes_sub_neg (h : x < 0.0 ∨ 0.0 < x) : ¬Vanishes (x - -x).toModel.unpack := by
  have hfits : Fits x.toModel.unpack := fits_unpack _
  have hdoubled := not_vanishes_doubled hfits (not_vanishes h)
  rw [← sub_neg_eq_doubled hfits, ← unpack_neg] at hdoubled
  exact hdoubled

/-- A product does not vanish where one factor has no fewer digits than its last place is below
one. -/
theorem not_vanishes_mul {s : Sign} {m : Nat} {e : Int} {pos : 0 < m}
    (hx : x.toModel.unpack = .finite s m e pos) (hone : 2 ^ (-e).toNat ≤ m)
    (hy : ¬Vanishes y.toModel.unpack) : ¬Vanishes (x * y).toModel.unpack := by
  change ¬Vanishes (Float.Model.pack (x.toModel.unpack.mul .binary64 y.toModel.unpack)).unpack
  have hfits : Fits y.toModel.unpack := fits_unpack _
  rw [hx]
  cases hu : y.toModel.unpack with
  | notANumber | zero t =>
    rw [hu] at hy
    exact absurd trivial hy
  | infinity t =>
    rw [show UnpackedFloat.mul .binary64 (.finite s m e pos) (.infinity t) =
      .infinity (s * t) from rfl, unpack_pack (.infinity _)]
    exact id
  | finite t n d pos' =>
    rw [hu] at hfits
    cases hfits with
    | finite _ _ _ _ digits low high place =>
      have hdigit : 2 ^ (-1074 - (e + d)).toNat ≤ m * n := by
        calc 2 ^ (-1074 - (e + d)).toNat ≤ 2 ^ (-e).toNat :=
              Nat.pow_le_pow_right (by decide) (by omega)
          _ ≤ m := hone
          _ ≤ m * n := Nat.le_mul_of_pos_right m pos'
      obtain ⟨r, last, hpos, hround, hdigits, hlow⟩ := round_pos hdigit (s * t) .exact
      rw [show UnpackedFloat.mul .binary64 (.finite s m e pos) (.finite t n d pos') =
        roundWithAccuracy .binary64 (s * t) (m * n) (e + d) .exact from rfl, hround]
      exact not_vanishes_pack hdigits hlow

end SkidSteer.Binary64
