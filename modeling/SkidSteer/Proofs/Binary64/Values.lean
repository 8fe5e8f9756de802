import SkidSteer.Proofs.Binary64.Signs
import SkidSteer.Proofs.Binary64.Words
import SkidSteer.Binary64.Exact

namespace SkidSteer.Binary64

/-- What a word stands for; nothing else than zero for a NaN or an infinity. -/
def Reading.value : Reading → ℚ
  | .finite false significand exponent => significand * 2 ^ exponent
  | .finite true significand exponent => -(significand * 2 ^ exponent)
  | _ => 0

def value (x : Float) : ℚ := (ofFloat x).read.value

/-- A number above zero, and finite, is read without a sign. -/
theorem read_of_isPositive {x : Float} (h : Scalar.isPositive x = true) :
    ∃ m e, 0 < m ∧ (ofFloat x).read = .finite false m e := by
  obtain ⟨hfinite, hpos⟩ := Scalar.isPositive_iff.1 h
  have hread : x.toModel.unpack = (ofFloat x).read.unpacked := unpack_word (ofFloat x)
  have hunsigned := unsigned_of_lt hpos
  change x.toModel.unpack.isFinite = true at hfinite
  rw [lt_iff, order, unpack_zero, hread] at hpos
  rw [hread] at hunsigned hfinite
  cases hr : (ofFloat x).read with
  | nan | infinite s =>
    rw [hr] at hfinite
    cases hfinite
  | finite s m e =>
    rw [hr, Reading.unpacked] at hpos hunsigned
    split at hpos
    · cases hpos
    · rename_i hm
      rw [dif_neg hm] at hunsigned
      cases s with
      | true => cases hunsigned
      | false => exact ⟨m, e, Nat.pos_of_ne_zero hm, rfl⟩

theorem shiftLeft_mul_zpow (m places : Nat) (e : Int) :
    ((m <<< places : ℕ) : ℚ) * 2 ^ (e - places) = m * 2 ^ e := by
  rw [Nat.shiftLeft_eq, Nat.cast_mul, Nat.cast_pow, Nat.cast_ofNat, mul_assoc, ← zpow_natCast,
    ← zpow_add₀ two_ne_zero, add_sub_cancel]

/-- The word of what has 53 digits is read as the same value. -/
theorem read_ofFinite {n : Nat} {e : Int} (digits : n < 2 ^ 53) (low : -1074 ≤ e) (high : e ≤ 971)
    (negative : Bool) : ∃ m d, (ofFinite negative n e).read = .finite negative m d ∧
      (m : ℚ) * 2 ^ d = n * 2 ^ e := by
  have hlog : n.log2 ≤ 52 := by
    by_cases hn : n = 0
    · rw [hn]
      decide
    · exact Nat.lt_succ_iff.1 ((Nat.log2_lt hn).2 digits)
  obtain ⟨last, hlast⟩ : ∃ last, last = lastPlace n e := ⟨_, rfl⟩
  obtain ⟨places, hplaces⟩ : ∃ places, places = (e - last).toNat := ⟨_, rfl⟩
  obtain ⟨scaled, hscaled⟩ : ∃ scaled, scaled = n <<< places := ⟨_, rfl⟩
  have hplace : last = max (e + n.log2 - 52) (-1074) := by
    rw [hlast, lastPlace]
    omega
  have hvalue : (scaled : ℚ) * 2 ^ last = n * 2 ^ e := by
    rw [hscaled, ← shiftLeft_mul_zpow n places e]
    congr 2
    omega
  have hshort : scaled < 2 ^ 53 := by
    rw [hscaled, Nat.shiftLeft_eq]
    calc n * 2 ^ places < 2 ^ (n.log2 + 1) * 2 ^ places :=
          Nat.mul_lt_mul_of_pos_right Nat.lt_log2_self (by positivity)
      _ ≤ 2 ^ 53 := by
          rw [← Nat.pow_add]
          exact Nat.pow_le_pow_right (by decide) (by omega)
  obtain ⟨magnitude, hmagnitude, hbits⟩ : ∃ magnitude, magnitude = (if scaled < 2 ^ 52 then scaled
      else (last + 1075).toNat * 2 ^ 52 + (scaled - 2 ^ 52)) ∧ (ofFinite negative n e).bits =
        UInt64.ofNat (if negative then 2 ^ 63 + magnitude else magnitude) := by
    have hle : last ≤ e := by omega
    refine ⟨_, rfl, ?_⟩
    simp only [ofFinite, Nat.pow_eq, ← hlast, if_pos hle, ← hplaces, ← hscaled]
  by_cases hfull : scaled < 2 ^ 52
  · rw [if_pos hfull, ← Nat.zero_add scaled, ← Nat.zero_mul (2 ^ 52)] at hmagnitude
    obtain ⟨hnegative, hexponent, hfraction⟩ := fields_ofNat hbits hmagnitude (by decide) hfull
    refine ⟨scaled, -1074, by rw [read, hexponent, hfraction, hnegative]; rfl, ?_⟩
    rw [← hvalue]
    by_cases hn : n = 0
    · simp [hscaled, hn]
    · -- with fewer digits than 53 the last place is the least of all
      have hleast : last = -1074 := by
        by_contra hne
        have hdigits : 2 ^ 52 ≤ scaled := by
          rw [hscaled, Nat.shiftLeft_eq]
          calc 2 ^ 52 = 2 ^ n.log2 * 2 ^ places := by
                rw [← Nat.pow_add]
                congr 1
                omega
            _ ≤ n * 2 ^ places := Nat.mul_le_mul_right _ (Nat.log2_self_le hn)
        exact absurd hfull (Nat.not_lt.2 hdigits)
      rw [hleast]
  · rw [if_neg hfull] at hmagnitude
    obtain ⟨hnegative, hexponent, hfraction⟩ :=
      fields_ofNat hbits hmagnitude (by omega) (by omega)
    refine ⟨scaled, last, ?_, hvalue⟩
    rw [read, hexponent, hfraction, hnegative, if_neg (by omega), if_neg (by omega), Nat.pow_eq]
    exact congrArg₂ (Reading.finite negative) (by omega) (by omega)

theorem fraction_pos (m : Nat) (e : Int) : 0 < (fraction m e).2 := by
  rw [fraction]
  split
  · exact Nat.one_pos
  · exact Nat.pow_pos Nat.two_pos

theorem fraction_eq (m : Nat) (e : Int) :
    ((fraction m e).1 : ℚ) / (fraction m e).2 = m * 2 ^ e := by
  rw [fraction]
  split
  · rename_i he
    obtain ⟨n, rfl⟩ := Int.eq_ofNat_of_zero_le he
    simp
  · rename_i he
    obtain ⟨n, hn⟩ := Int.exists_eq_neg_ofNat (Int.le_of_not_le he)
    subst hn
    simp [div_eq_mul_inv]

/-- A whole number that no other is nearer to; of two it is the even one. -/
structure Nearest (x : ℚ) (n : Nat) : Prop where
  near : |(n : ℚ) - x| ≤ 1 / 2
  even : |(n : ℚ) - x| = 1 / 2 → n % 2 = 0

theorem roundHalfEven_nearest (numerator : Nat) {denominator : Nat} (h : 0 < denominator) :
    Nearest (numerator / denominator) (roundHalfEven numerator denominator) := by
  obtain ⟨quotient, hquotient⟩ : ∃ quotient, quotient = numerator / denominator := ⟨_, rfl⟩
  obtain ⟨rest, hrest⟩ : ∃ rest, rest = numerator % denominator := ⟨_, rfl⟩
  have hpos : (0 : ℚ) < denominator := by exact_mod_cast h
  have hsmall : (rest : ℚ) / denominator < 1 := by
    rw [div_lt_one hpos, hrest]
    exact_mod_cast Nat.mod_lt numerator h
  have hvalue : (numerator : ℚ) / denominator = quotient + rest / denominator := by
    have hsum : (numerator : ℚ) = denominator * quotient + rest := by
      rw [hquotient, hrest]
      exact_mod_cast (Nat.div_add_mod numerator denominator).symm
    rw [hsum]
    field_simp
  have hhalf : 1 / 2 ≤ (rest : ℚ) / denominator ↔ denominator ≤ 2 * rest := by
    rw [div_le_div_iff₀ two_pos hpos, one_mul, mul_comm (rest : ℚ)]
    exact_mod_cast Iff.rfl
  have hhalf' : (rest : ℚ) / denominator ≤ 1 / 2 ↔ 2 * rest ≤ denominator := by
    rw [div_le_div_iff₀ hpos two_pos, one_mul, mul_comm (rest : ℚ)]
    exact_mod_cast Iff.rfl
  rw [roundHalfEven, hvalue]
  simp only [← hquotient, ← hrest, Bool.or_eq_true, decide_eq_true_eq, Bool.and_eq_true,
    beq_iff_eq]
  split
  · rename_i hup
    have hdiff : |((quotient + 1 : ℕ) : ℚ) - (quotient + rest / denominator)| =
        1 - rest / denominator := by
      push_cast
      rw [add_sub_add_left_eq_sub, abs_of_pos (sub_pos.2 hsmall)]
    constructor
    · have hlarge := hhalf.2 (by omega)
      rw [hdiff]
      linarith
    · intro htie
      rw [hdiff] at htie
      have hequal := hhalf'.1 (by linarith)
      omega
  · rename_i hdown
    have hdiff : |(quotient : ℚ) - (quotient + rest / denominator)| = rest / denominator := by
      rw [sub_add_cancel_left, abs_neg, abs_of_nonneg (by positivity)]
    constructor
    · rw [hdiff]
      exact hhalf'.2 (by omega)
    · intro htie
      rw [hdiff] at htie
      have hequal := hhalf.1 htie.ge
      omega

/-- From the middle between zero and one on the nearest is zero no more; in the middle it is. -/
theorem Nearest.pos_iff {x : ℚ} {n : Nat} (h : Nearest x n) : 0 < n ↔ 1 / 2 < x := by
  obtain ⟨hlow, hhigh⟩ := abs_le.1 h.near
  constructor
  · intro hn
    have hone : (1 : ℚ) ≤ n := by exact_mod_cast hn
    by_contra hle
    have hlast : n = 1 := by
      have hcast : (n : ℚ) = 1 := by linarith
      exact_mod_cast hcast
    have hmiddle : x = 1 / 2 := by linarith
    have heven := h.even (by rw [hlast, hmiddle]; norm_num)
    omega
  · intro hx
    by_contra hn
    have hzero : (n : ℚ) = 0 := by exact_mod_cast Nat.eq_zero_of_not_pos hn
    linarith

end SkidSteer.Binary64
