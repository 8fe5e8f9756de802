import SkidSteer.Proofs.Binary64.Values

namespace SkidSteer.Binary64

open Float.Model Float.Model.UnpackedFloat

theorem mantissa_shiftRight (em : ExtendedMantissa) (places : Nat) :
    (em >>> places).mantissa = em.mantissa / 2 ^ places := by
  induction places with
  | zero => simp [HShiftRight.hShiftRight, Nat.repeat]
  | succ places ih =>
    change (em >>> places).mantissa / 2 = _
    rw [ih, Nat.div_div_eq_div_mul, Nat.pow_succ]

theorem mantissa_ofAccuracy (m : Nat) (a : Accuracy) :
    (ExtendedMantissa.ofMantissaAndAccuracy m a).mantissa = m := by
  cases a with
  | exact => rfl
  | inexact o => cases o <;> rfl

theorem roundedMantissa_bounds (em : ExtendedMantissa) :
    em.mantissa ≤ em.roundedMantissa ∧ em.roundedMantissa ≤ em.mantissa + 1 := by
  obtain ⟨m, half, rest⟩ := em
  cases half <;> cases rest <;>
    simp [ExtendedMantissa.roundedMantissa, ExtendedMantissa.accuracy, Accuracy.roundToNearestEven]
  omega

theorem targetExponent_eq (t : Int) : Format.binary64.targetExponent t = max (t - 53) (-1074) := rfl

/-- A significand is cut to 53 digits, and to those from the last place on. -/
theorem shiftToTargetExponent_eq (m : Nat) (e : Int) (a : Accuracy) :
    ∃ em places, shiftToTargetExponent .binary64 m e a = (em, e + (places : Nat)) ∧
      places = max (m.log2 - 52) (-1074 - e).toNat ∧ em.mantissa = m / 2 ^ places ∧
        em.mantissa < 2 ^ 53 := by
  obtain ⟨places, hplaces⟩ : ∃ places, places =
    (Format.binary64.targetExponent (totalExponent m e) - e).toNat := ⟨_, rfl⟩
  have hcases : places = max (m.log2 - 52) (-1074 - e).toNat := by
    rw [hplaces, targetExponent_eq, totalExponent]
    omega
  have hdigits : m < 2 ^ 53 * 2 ^ places := by
    rw [← Nat.pow_add]
    exact Nat.lt_of_lt_of_le Nat.lt_log2_self (Nat.pow_le_pow_right (by decide) (by omega))
  refine ⟨_, places, by rw [hplaces]; rfl, hcases, ?_, ?_⟩
  all_goals simp only [mantissa_shiftRight, mantissa_ofAccuracy, ← hplaces]
  exact (Nat.div_lt_iff_lt_mul (by positivity)).2 hdigits

/-- Rounding cuts a significand twice, the second time what it was rounded to. -/
theorem round_eq {m : Nat} {e t t' : Int} {a : Accuracy} {em em' : ExtendedMantissa}
    (hfirst : shiftToTargetExponent .binary64 m e a = (em, t))
    (hsecond : shiftToTargetExponent .binary64 em.roundedMantissa t .exact = (em', t'))
    (pos : 0 < em'.mantissa) (s : Sign) :
    roundWithAccuracy .binary64 s m e a = .finite s em'.mantissa t' pos := by
  simp only [roundWithAccuracy, hfirst, hsecond]
  rw [dif_neg pos.ne']

/-- What a significand of 53 digits or more stands for stays one or more. -/
theorem shiftToTargetExponent_bounds {m : Nat} {e : Int} (hm : 2 ^ 52 ≤ m)
    (hone : 0 ≤ m.log2 + e) (a : Accuracy) :
    ∃ em t, shiftToTargetExponent .binary64 m e a = (em, t) ∧
      2 ^ 52 ≤ em.mantissa ∧ em.mantissa < 2 ^ 53 ∧ -52 ≤ t := by
  have hdigits : 52 ≤ m.log2 := (Nat.le_log2 (by omega)).2 hm
  obtain ⟨em, places, hshift, hplaces, hmantissa, hhigh⟩ := shiftToTargetExponent_eq m e a
  refine ⟨em, _, hshift, ?_, hhigh, by omega⟩
  rw [hmantissa, Nat.le_div_iff_mul_le (by positivity), ← Nat.pow_add,
    show 52 + places = m.log2 by omega]
  exact Nat.log2_self_le (by omega)

theorem round_from_one {m : Nat} {e : Int} (hm : 2 ^ 52 ≤ m) (hone : 0 ≤ m.log2 + e) (s : Sign)
    (a : Accuracy) :
    ∃ r t pos, roundWithAccuracy .binary64 s m e a = .finite s r t pos ∧
      2 ^ 52 ≤ r ∧ r < 2 ^ 53 ∧ -52 ≤ t := by
  obtain ⟨em, t, hfirst, hlow, hhigh, ht⟩ := shiftToTargetExponent_bounds hm hone a
  obtain ⟨hup, hdown⟩ := roundedMantissa_bounds em
  have hdigits : 52 ≤ em.roundedMantissa.log2 := (Nat.le_log2 (by omega)).2 (by omega)
  obtain ⟨em', t', hsecond, hlow', hhigh', ht'⟩ :=
    shiftToTargetExponent_bounds (m := em.roundedMantissa) (e := t) (by omega) (by omega) .exact
  exact ⟨em'.mantissa, t', by omega, round_eq hfirst hsecond _ s, hlow', hhigh', ht'⟩

/-- What is one or more, to the place of its last digit, has a digit for one. -/
theorem log2_from_one {m : Nat} {e : Int} (he : e ≤ 0) (hm : 2 ^ (-e).toNat ≤ m) :
    0 ≤ m.log2 + e := by
  have hpos : 0 < 2 ^ (-e).toNat := by positivity
  have := (Nat.le_log2 (by omega)).2 hm
  omega

/-- One more than what is not below zero, before it is packed. -/
theorem add_one_cases {f : UnpackedFloat} (h : NotBelow f) :
    (f.add .binary64 (.finite .positive (2 ^ 52) (-52) (by decide))).isFinite = false ∨
      ∃ r t pos, f.add .binary64 (.finite .positive (2 ^ 52) (-52) (by decide)) =
        .finite .positive r t pos ∧ 2 ^ 52 ≤ r ∧ r < 2 ^ 53 ∧ -52 ≤ t := by
  cases f with
  | notANumber | infinity s => exact Or.inl rfl
  | zero s => exact Or.inr ⟨2 ^ 52, -52, by decide, rfl, by omega, by omega, by omega⟩
  | finite s m e pos =>
    cases (h : s = .positive)
    obtain ⟨last, hlast⟩ : ∃ last, last = min e (-52) := ⟨_, rfl⟩
    obtain ⟨sum, hsum⟩ : ∃ sum,
        sum = m <<< (e - last).toNat + (2 ^ 52) <<< (-52 - last).toNat := ⟨_, rfl⟩
    have hone : 2 ^ (-last).toNat ≤ sum := by
      rw [hsum, Nat.shiftLeft_eq (2 ^ 52), ← Nat.pow_add,
        show 52 + (-52 - last).toNat = (-last).toNat by omega]
      exact Nat.le_add_left _ _
    have hlarge : 2 ^ 52 ≤ sum :=
      Nat.le_trans (Nat.pow_le_pow_right (by decide) (by omega)) hone
    have hlog := log2_from_one (by omega) hone
    have htarget : (last - Format.binary64.targetExponent (totalExponent sum last)).toNat = 0 := by
      rw [targetExponent_eq, totalExponent]
      omega
    obtain ⟨r, t, hpos, hround, hbounds⟩ := round_from_one hlarge hlog .positive .exact
    refine Or.inr ⟨r, t, hpos, ?_, hbounds⟩
    have hadd : UnpackedFloat.add .binary64 (.finite .positive m e pos)
        (.finite .positive (2 ^ 52) (-52) (by decide)) =
          UnpackedFloat.normalize .binary64 (sum : Int) last .positive := by
      simp only [UnpackedFloat.add, decreaseExponent, ← hlast, hsum, Int.natCast_add]
      rfl
    have hcompare : compare (sum : Int) 0 = .gt := Int.compare_eq_gt.2 (by omega)
    rw [hadd]
    simp only [UnpackedFloat.normalize, hcompare, UnpackedFloat.round, decreaseExponent,
      Int.toNat_natCast, htarget, Nat.shiftLeft_zero, Int.natCast_zero, Int.sub_zero]
    exact hround

variable {x : Float}

theorem notBelow_ofFinite {n : Nat} (h : n < 2 ^ 53) :
    NotBelow (ofFinite false n 0).read.unpacked := by
  obtain ⟨m, e, hread, -⟩ := read_ofFinite h (e := 0) (by decide) (by decide) false
  rw [hread, Reading.unpacked]
  split
  · trivial
  · rfl

theorem not_ceiling_lt_zero (h : ¬x < 0.0) : ¬ceiling x < 0.0 := by
  have hread := unpack_word (ofFloat x)
  change x.toModel.unpack = _ at hread
  have hbelow := not_lt_zero_iff.1 h
  have hfits : Fits x.toModel.unpack := fits_unpack _
  rw [hread] at hbelow hfits
  unfold ceiling
  cases hr : (ofFloat x).read with
  | nan | infinite s => exact h
  | finite negative m e =>
    rw [hr] at hbelow hfits
    simp only
    split
    · exact h
    · by_cases hm : m = 0
      · subst hm
        cases negative <;> simp <;> decide
      · simp only [Reading.unpacked, dif_neg hm] at hbelow hfits
        have hpositive : negative = false := by
          cases negative with
          | false => rfl
          | true => cases hbelow
        subst hpositive
        have hsmall : m < 2 ^ 53 := by
          cases hfits with
          | finite _ _ _ _ digits => exact digits
        have hunit : 2 ^ 1 ≤ Nat.pow 2 (-e).toNat := Nat.pow_le_pow_right (by decide) (by omega)
        have hwhole : m / Nat.pow 2 (-e).toNat ≤ m / 2 := Nat.div_le_div_left hunit (by decide)
        apply not_lt_zero_iff.2
        rw [unpack_toFloat]
        apply notBelow_ofFinite
        simp only [Bool.false_or]
        split
        · omega
        · omega

/-- What is packed and still finite was not too large. -/
theorem unpack_pack_of_isFinite {s : Sign} {m : Nat} {e : Int} {pos : 0 < m}
    (place : 2 ^ 52 ≤ m) (digits : m < 2 ^ 53) (low : -1074 ≤ e)
    (h : (Float.Model.pack (.finite s m e pos)).unpack.isFinite = true) :
    (Float.Model.pack (.finite s m e pos)).unpack = .finite s m e pos := by
  by_cases high : e ≤ 971
  · exact unpack_pack (.finite s m e pos digits low high (Or.inl place))
  · rw [pack_of_overflow (by omega)] at h
    cases s <;> cases h

/-- The count of a number above zero is its whole part. -/
theorem toNat_toUInt64 {m : Nat} {e : Int} {pos : 0 < m}
    (h : x.toModel.unpack = .finite .positive m e pos) :
    x.toUInt64.toNat = min (m <<< e.toNat / 2 ^ (-e).toNat) (UInt64.size - 1) := by
  have hwhole : x.toModel.unpack.toInt 0 (UInt64.size - 1) =
      ((m <<< e.toNat / 2 ^ (-e).toNat : Nat) : Int) := by
    rw [h]
    simp only [UnpackedFloat.toInt, roundToInt, decreaseExponent, shiftToExponent,
      mantissa_shiftRight, mantissa_ofAccuracy, Int.sub_zero,
      show (0 - (e - (e.toNat : Int))).toNat = (-e).toNat by omega]
    rfl
  change (UInt64.ofNatClamp (x.toModel.unpack.toInt 0 (UInt64.size - 1)).toNat).toNat = _
  rw [hwhole, Int.toNat_natCast]
  by_cases hlarge : m <<< e.toNat / 2 ^ (-e).toNat < UInt64.size
  · rw [UInt64.toNat_ofNatClamp_of_lt hlarge]
    omega
  · rw [UInt64.toNat_ofNatClamp_of_le (Nat.le_of_not_lt hlarge)]
    omega

/-- One more than what is not below zero, if that is finite, counts one or more. -/
theorem one_le_count_add_one (h : ¬x < 0.0) (hfinite : (x + 1.0).isFinite = true) :
    1 ≤ (x + 1.0).toUInt64.toNat := by
  obtain ⟨sum, hsum⟩ : ∃ sum, sum = x.toModel.unpack.add .binary64
      (.finite .positive (2 ^ 52) (-52) (by decide)) := ⟨_, rfl⟩
  have hunpack : (x + 1.0).toModel.unpack = (Float.Model.pack sum).unpack := by rw [hsum]; rfl
  change (x + 1.0).toModel.unpack.isFinite = true at hfinite
  rw [hunpack] at hfinite
  rcases add_one_cases (not_lt_zero_iff.1 h) with hnone | ⟨r, t, pos, hadd, hlow, hhigh, ht⟩
  · rw [← hsum] at hnone
    cases sum with
    | notANumber => cases hfinite
    | infinity s => cases s <;> cases hfinite
    | zero s | finite s m e pos => cases hnone
  · rw [← hsum] at hadd
    subst hadd
    rw [unpack_pack_of_isFinite hlow hhigh (by omega) hfinite] at hunpack
    have hpow : 2 ^ (-t).toNat ≤ r <<< t.toNat := by
      calc 2 ^ (-t).toNat ≤ 2 ^ 52 := Nat.pow_le_pow_right (by decide) (by omega)
        _ ≤ r := hlow
        _ ≤ r <<< t.toNat := by
          rw [Nat.shiftLeft_eq]
          exact Nat.le_mul_of_pos_right r (by positivity)
    have hone := Nat.div_pos hpow (by positivity)
    rw [toNat_toUInt64 hunpack]
    exact Nat.le_min.2 ⟨hone, by decide⟩

/-- A number that is not above a whole number counts no more than that. -/
theorem count_le_of_not_lt {most : Float} {n : Nat} {d : Int} {pos : 0 < n}
    (hmost : most.toModel.unpack = .finite .positive n d pos) (hplace : 2 ^ 52 ≤ n) (hd : d ≤ 0)
    (hx : ¬x < 0.0) (hfinite : x.isFinite = true) (h : ¬most < x) :
    x.toUInt64.toNat ≤ n / 2 ^ (-d).toNat := by
  have hbelow := not_lt_zero_iff.1 hx
  have hfits : Fits x.toModel.unpack := fits_unpack _
  change x.toModel.unpack.isFinite = true at hfinite
  rw [lt_iff, order, hmost] at h
  cases hu : x.toModel.unpack with
  | notANumber | infinity s => rw [hu] at hfinite; cases hfinite
  | zero s =>
    have hnone : x.toUInt64 =
        UInt64.ofNatClamp (x.toModel.unpack.toInt 0 (UInt64.size - 1)).toNat := rfl
    rw [hnone, hu]
    exact Nat.zero_le _
  | finite s m e pos =>
    rw [hu] at hbelow hfits h
    cases (hbelow : s = .positive)
    cases hfits with
    | finite _ _ _ _ digits low high place =>
      have horder := not_lt_finite h
      have hle := shiftLeft_le digits low (Or.inl hplace) horder
      have hnone : e.toNat = 0 := by omega
      have hlast : min d e = e := by omega
      have hplaces : (-e).toNat = (d - e).toNat + (-d).toNat := by omega
      rw [hlast, Int.sub_self, Int.toNat_zero, Nat.shiftLeft_zero, Nat.shiftLeft_eq] at hle
      rw [toNat_toUInt64 hu, hnone, Nat.shiftLeft_zero]
      refine Nat.le_trans (Nat.min_le_left ..) ?_
      calc m / 2 ^ (-e).toNat ≤ n * 2 ^ (d - e).toNat / 2 ^ (-e).toNat :=
            Nat.div_le_div_right hle
        _ = n / 2 ^ (-d).toNat := by
            rw [hplaces, Nat.pow_add, Nat.mul_comm n]
            exact Nat.mul_div_mul_left _ _ (by positivity)

end SkidSteer.Binary64
