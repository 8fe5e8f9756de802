import SkidSteer.Proofs.Binary64.Rounding
import SkidSteer.Proofs.Binary64.Values

namespace SkidSteer.Binary64

open Float.Model Float.Model.UnpackedFloat

/-- A significand and its two bits stand for a number: its whole part, whether a half or more comes
after that, and whether there is more than nothing or a half. -/
structure Shows (em : ExtendedMantissa) (x : ℚ) : Prop where
  low : em.mantissa ≤ x
  high : x < em.mantissa + 1
  half : em.roundBit = true ↔ (em.mantissa : ℚ) + 1 / 2 ≤ x
  more : em.stickyBit = true ↔ x ≠ em.mantissa ∧ x ≠ em.mantissa + 1 / 2

variable {em : ExtendedMantissa} {x : ℚ}

theorem shows_exact (m : Nat) : Shows ⟨m, false, false⟩ m where
  low := le_rfl
  high := lt_add_one _
  half := iff_of_false nofun (by norm_num)
  more := iff_of_false nofun (by simp)

theorem Shows.shiftRightOne (h : Shows em x) : Shows em.shiftRightOne (x / 2) := by
  obtain ⟨m, half, more⟩ := em
  obtain ⟨hlow, hhigh, hhalf, hmore⟩ := h
  have hcast : (m : ℚ) = 2 * ((m / 2 : ℕ) : ℚ) + ((m % 2 : ℕ) : ℚ) := by
    exact_mod_cast (Nat.div_add_mod m 2).symm
  have hrest : (half || more) = true ↔ x ≠ m := by
    rw [Bool.or_eq_true, hhalf, hmore]
    constructor
    · rintro (h | h)
      · exact (by simp only at h; linarith : (m : ℚ) < x).ne'
      · exact h.1
    · intro hne
      by_cases heq : x = m + 1 / 2
      · exact Or.inl heq.ge
      · exact Or.inr ⟨hne, heq⟩
  simp only at hlow hhigh
  simp only [ExtendedMantissa.shiftRightOne]
  rcases Nat.mod_two_eq_zero_or_one m with hm | hm
  · rw [hm, Nat.cast_zero, add_zero] at hcast
    refine ⟨by simp only; linarith, by simp only; linarith, ?_, ?_⟩
    · exact iff_of_false (by simp [hm]) (by simp only; linarith)
    · simp only [hrest]
      constructor
      · intro hne
        exact ⟨fun h => hne (by linarith), by linarith⟩
      · rintro ⟨hne, -⟩ h
        exact hne (by linarith)
  · rw [hm, Nat.cast_one] at hcast
    refine ⟨by simp only; linarith, by simp only; linarith, ?_, ?_⟩
    · exact iff_of_true (by simp [hm]) (by simp only; linarith)
    · simp only [hrest]
      constructor
      · intro hne
        exact ⟨by linarith, fun h => hne (by linarith)⟩
      · rintro ⟨-, hne⟩ h
        exact hne (by linarith)

theorem Shows.shiftRight (h : Shows em x) (places : Nat) :
    Shows (em >>> places) (x / 2 ^ places) := by
  induction places with
  | zero => simpa [HShiftRight.hShiftRight, Nat.repeat] using h
  | succ places ih =>
    change Shows (em >>> places).shiftRightOne _
    rw [pow_succ, ← div_div]
    exact ih.shiftRightOne

/-- The whole number nearest to what is shown. -/
theorem Shows.rounded (h : Shows em x) : |(em.roundedMantissa : ℚ) - x| ≤ 1 / 2 := by
  obtain ⟨m, half, more⟩ := em
  obtain ⟨hlow, hhigh, hhalf, hmore⟩ := h
  simp only at hlow hhigh hhalf hmore
  rw [abs_le]
  cases half with
  | false =>
    have hbelow : x < m + 1 / 2 := not_le.1 (mt hhalf.2 Bool.false_ne_true)
    have hdown : (ExtendedMantissa.mk m false more).roundedMantissa = m := by cases more <;> rfl
    rw [hdown]
    constructor <;> linarith
  | true =>
    have habove : (m : ℚ) + 1 / 2 ≤ x := hhalf.1 rfl
    cases more with
    | true =>
      have hup : (ExtendedMantissa.mk m true true).roundedMantissa = m + 1 := rfl
      rw [hup, Nat.cast_add, Nat.cast_one]
      constructor <;> linarith
    | false =>
      have htie : x = m + 1 / 2 := by
        by_contra hne
        exact Bool.false_ne_true (hmore.2 ⟨by linarith, hne⟩)
      obtain ⟨hup, hdown⟩ := roundedMantissa_bounds ⟨m, true, false⟩
      have hup' : (m : ℚ) ≤ (ExtendedMantissa.mk m true false).roundedMantissa := by
        exact_mod_cast hup
      have hdown' : ((ExtendedMantissa.mk m true false).roundedMantissa : ℚ) ≤ m + 1 := by
        exact_mod_cast hdown
      constructor <;> linarith

theorem shows_shiftToTargetExponent {m : Nat} {e t : Int}
    (h : shiftToTargetExponent .binary64 m e .exact = (em, t)) : Shows em (m * 2 ^ e / 2 ^ t) := by
  have hshift := (shows_exact m).shiftRight
    (Format.binary64.targetExponent (totalExponent m e) - e).toNat
  obtain ⟨rfl, rfl⟩ := Prod.mk.inj h
  rw [zpow_add₀ two_ne_zero, zpow_natCast, mul_comm ((2 : ℚ) ^ e),
    mul_div_mul_right _ _ (zpow_ne_zero e two_ne_zero)]
  exact hshift

/-- What has 53 digits, the last of which has a place. How large it is does not matter. -/
def Representable (v : ℚ) : Prop := ∃ k j : ℤ, |k| < 2 ^ 53 ∧ -1074 ≤ j ∧ v = k * 2 ^ j

/-- No representable number is nearer to `z`. -/
structure RoundsTo (z v : ℚ) : Prop where
  representable : Representable v
  nearest : ∀ w, Representable w → |v - z| ≤ |w - z|

variable {z v w : ℚ}

theorem representable_zero : Representable 0 :=
  ⟨0, 0, by norm_num, by norm_num, by rw [Int.cast_zero, zero_mul]⟩

theorem Representable.neg (h : Representable v) : Representable (-v) := by
  obtain ⟨k, j, hk, hj, rfl⟩ := h
  exact ⟨-k, j, by rwa [abs_neg], hj, by push_cast; ring⟩

theorem Representable.roundsTo (h : Representable v) : RoundsTo v v :=
  ⟨h, fun w _ => by rw [sub_self, abs_zero]; exact abs_nonneg _⟩

theorem RoundsTo.neg (h : RoundsTo z v) : RoundsTo (-z) (-v) := by
  refine ⟨h.representable.neg, fun w hw => ?_⟩
  calc |-v - -z| = |v - z| := by rw [neg_sub_neg, abs_sub_comm]
    _ ≤ |-w - z| := h.nearest (-w) hw.neg
    _ = |w - -z| := by rw [← abs_neg, neg_sub', neg_neg]

theorem RoundsTo.le (h : RoundsTo z v) (hw : Representable w) (hle : z ≤ w) : v ≤ w := by
  by_contra hlt
  have hnear := h.nearest w hw
  rw [abs_of_nonneg (by linarith), abs_of_nonneg (by linarith)] at hnear
  linarith

theorem RoundsTo.ge (h : RoundsTo z v) (hw : Representable w) (hle : w ≤ z) : w ≤ v := by
  have hge := h.neg.le hw.neg (neg_le_neg hle)
  exact neg_le_neg_iff.1 hge

theorem RoundsTo.eq (h : RoundsTo z v) (hz : Representable z) : v = z :=
  le_antisymm (h.le hz le_rfl) (h.ge hz le_rfl)

theorem nearest_whole {r : Nat} (hr : |(r : ℚ) - x| ≤ 1 / 2) {u : ℚ} (hu : ∃ n : ℤ, u = n) :
    |(r : ℚ) - x| ≤ |u - x| := by
  obtain ⟨n, rfl⟩ := hu
  by_cases heq : n = r
  · rw [heq, Int.cast_natCast]
  · have hapart : (1 : ℚ) ≤ |(n : ℚ) - r| := by
      exact_mod_cast Int.one_le_abs (sub_ne_zero.2 heq)
    have htriangle := abs_sub_le (n : ℚ) x r
    rw [abs_sub_comm x] at htriangle
    linarith

/-- A representable number is a whole multiple of a unit, or has no 53 digits from there on. -/
theorem Representable.multiple_or_small (h : Representable v) (t : ℤ) :
    (∃ n : ℤ, v = n * 2 ^ t) ∨ -1074 < t ∧ |v| < 2 ^ 52 * 2 ^ t := by
  obtain ⟨k, j, hk, hj, rfl⟩ := h
  by_cases hjt : t ≤ j
  · obtain ⟨places, hplaces⟩ := Int.eq_ofNat_of_zero_le (sub_nonneg.2 hjt)
    refine Or.inl ⟨k * 2 ^ places, ?_⟩
    rw [show j = places + t by omega, zpow_add₀ two_ne_zero, zpow_natCast]
    push_cast
    ring
  · have hdigits : |(k : ℚ)| < 2 ^ 53 := by exact_mod_cast hk
    have hpower : (2 : ℚ) ^ j ≤ 2 ^ (t - 1) := zpow_le_zpow_right₀ one_le_two (by omega)
    refine Or.inr ⟨by omega, ?_⟩
    calc |(k : ℚ) * 2 ^ j| = |(k : ℚ)| * 2 ^ j := by
          rw [abs_mul, abs_of_pos (a := (2 : ℚ) ^ j) (zpow_pos two_pos j)]
      _ < 2 ^ 53 * 2 ^ j := by gcongr
      _ ≤ 2 ^ 53 * 2 ^ (t - 1) := by gcongr
      _ = 2 ^ 52 * 2 ^ t := by
          rw [zpow_sub_one₀ two_ne_zero]
          ring

/-- The whole number nearest to a significand in its place makes the nearest representable one: a
number with digits below the last place is too small for it to matter. -/
theorem roundsTo_of_cut {r : Nat} {t : ℤ} (hr : |(r : ℚ) - x| ≤ 1 / 2)
    (hplace : t = -1074 ∨ 2 ^ 52 ≤ x) (h : Representable (r * 2 ^ t)) :
    RoundsTo (x * 2 ^ t) (r * 2 ^ t) := by
  have hunit : (0 : ℚ) < 2 ^ t := zpow_pos two_pos t
  refine ⟨h, fun w hw => ?_⟩
  rw [← sub_mul, abs_mul, abs_of_pos hunit]
  rcases hw.multiple_or_small t with ⟨n, rfl⟩ | ⟨hlow, hsmall⟩
  · rw [← sub_mul, abs_mul, abs_of_pos hunit]
    exact mul_le_mul_of_nonneg_right (nearest_whole hr ⟨n, rfl⟩) hunit.le
  · have hlarge : 2 ^ 52 ≤ x := hplace.resolve_left (by omega)
    have hnear : |(r : ℚ) - x| ≤ |2 ^ 52 - x| := nearest_whole hr ⟨2 ^ 52, by norm_num⟩
    rw [abs_sub_comm (2 ^ 52 : ℚ), abs_of_nonneg (sub_nonneg.2 hlarge)] at hnear
    calc |(r : ℚ) - x| * 2 ^ t ≤ (x - 2 ^ 52) * 2 ^ t := by gcongr
      _ ≤ x * 2 ^ t - w := by
          rw [sub_mul]
          linarith [le_abs_self w]
      _ ≤ |w - x * 2 ^ t| := by
          rw [abs_sub_comm]
          exact le_abs_self _

/-- The value of what a number unpacks to; nothing else than zero for a NaN or an infinity. -/
def exact : UnpackedFloat → ℚ
  | .finite s m e _ => s.apply m * 2 ^ e
  | _ => 0

@[simp] theorem exact_zero (s : Sign) : exact (.zero s) = 0 := rfl

@[simp] theorem exact_finite (s : Sign) (m : Nat) (e : Int) (pos : 0 < m) :
    exact (.finite s m e pos) = s.apply m * 2 ^ e := rfl

/-- What rounding may make: a finite number in its place, which may be too large for a word. -/
inductive Placed : UnpackedFloat → Prop where
  | zero (s : Sign) : Placed (.zero s)
  | finite (s : Sign) (m : Nat) (e : Int) (pos : 0 < m) (digits : m < 2 ^ 53) (low : -1074 ≤ e)
      (place : 2 ^ 52 ≤ m ∨ e = -1074) : Placed (.finite s m e pos)

/-- A number in its place, and no representable one is nearer. -/
structure Rounded (z : ℚ) (f : UnpackedFloat) : Prop where
  placed : Placed f
  rounds : RoundsTo z (exact f)

theorem representable_apply {m : Nat} {e : Int} (digits : m < 2 ^ 53) (low : -1074 ≤ e) (s : Sign) :
    Representable (s.apply m * 2 ^ e) := by
  refine ⟨s.apply m, e, ?_, low, rfl⟩
  cases s
  · rw [Sign.apply, abs_neg, Nat.abs_cast]
    exact_mod_cast digits
  · rw [Sign.apply, Nat.abs_cast]
    exact_mod_cast digits

theorem Placed.representable {f : UnpackedFloat} (h : Placed f) : Representable (exact f) := by
  cases h with
  | zero s => exact representable_zero
  | finite s m e pos digits low place => exact representable_apply digits low s

theorem Placed.rounded {f : UnpackedFloat} (h : Placed f) : Rounded (exact f) f :=
  ⟨h, h.representable.roundsTo⟩

theorem RoundsTo.apply {m r : Nat} {e t : ℤ} (h : RoundsTo (m * 2 ^ e) (r * 2 ^ t)) (s : Sign) :
    RoundsTo (s.apply m * 2 ^ e) (s.apply r * 2 ^ t) := by
  cases s
  · have hneg := h.neg
    rw [← neg_mul, ← neg_mul] at hneg
    exact_mod_cast hneg
  · exact_mod_cast h

/-- A significand that was rounded is brought to its place without a change. -/
theorem exact_roundWithAccuracy {m : Nat} {e t : Int} {a : Accuracy}
    (hfirst : shiftToTargetExponent .binary64 m e a = (em, t))
    (digits : em.roundedMantissa ≤ 2 ^ 53) (low : -1074 ≤ t)
    (place : 2 ^ 52 ≤ em.roundedMantissa ∨ t = -1074) (s : Sign) :
    Placed (roundWithAccuracy .binary64 s m e a) ∧
      exact (roundWithAccuracy .binary64 s m e a) = s.apply em.roundedMantissa * 2 ^ t := by
  obtain ⟨r, hr⟩ : ∃ r, em.roundedMantissa = r := ⟨_, rfl⟩
  rw [hr] at digits place ⊢
  rcases Nat.eq_zero_or_pos r with hzero | pos
  · obtain ⟨em', places, hsecond, -, hnone, -⟩ := shiftToTargetExponent_eq r t .exact
    have hz : roundWithAccuracy .binary64 s m e a = .zero s := by
      rw [hzero, Nat.zero_div] at hnone
      simp only [roundWithAccuracy, hfirst, hr, hsecond]
      rw [dif_pos hnone]
    rw [hz, hzero]
    exact ⟨.zero s, by cases s <;> simp [exact, Sign.apply]⟩
  · rcases digits.lt_or_eq with hlt | hfull
    · have hsecond : shiftToTargetExponent .binary64 em.roundedMantissa t .exact =
          (⟨r, false, false⟩, t) := by
        have hsame := shiftToTargetExponent_exact pos hlt low place 0
        rw [hr]
        rwa [Nat.pow_zero, Nat.mul_one, Nat.cast_zero, sub_zero] at hsame
      rw [round_eq hfirst hsecond pos s]
      exact ⟨.finite s r t pos hlt low place, rfl⟩
    · have hsecond : shiftToTargetExponent .binary64 em.roundedMantissa t .exact =
          (⟨2 ^ 52, false, false⟩, t + 1) := by
        have hshifted := shiftToTargetExponent_exact (m := 2 ^ 52) (e := t + 1) (by decide)
          (by decide) (by omega) (Or.inl le_rfl) 1
        rwa [Nat.cast_one, add_sub_cancel_right, ← Nat.pow_add, ← hfull, ← hr] at hshifted
      have pos' : 0 < 2 ^ 52 := by decide
      rw [round_eq hfirst hsecond pos' s]
      refine ⟨.finite s (2 ^ 52) (t + 1) pos' (by decide) (by omega) (Or.inl le_rfl), ?_⟩
      rw [exact, hfull, zpow_add_one₀ two_ne_zero]
      cases s <;> norm_num [Sign.apply] <;> ring

/-- A significand that reaches its last place is rounded to the nearest. -/
theorem rounded_roundWithAccuracy {m : Nat} {e : Int} (pos : 0 < m)
    (hplace : 52 ≤ m.log2 ∨ e ≤ -1074) (s : Sign) :
    Rounded (s.apply m * 2 ^ e) (roundWithAccuracy .binary64 s m e .exact) := by
  obtain ⟨em, places, hfirst, hplaces, hmantissa, hhigh⟩ := shiftToTargetExponent_eq m e .exact
  obtain ⟨t, ht⟩ : ∃ t : Int, t = e + places := ⟨_, rfl⟩
  rw [← ht] at hfirst
  have hshows := shows_shiftToTargetExponent hfirst
  obtain ⟨hup, hdown⟩ := roundedMantissa_bounds em
  have hlow : -1074 ≤ t := by omega
  have hfull : 2 ^ 52 ≤ em.mantissa ∨ t = -1074 := by
    by_cases hleast : t = -1074
    · exact Or.inr hleast
    · left
      rw [hmantissa, Nat.le_div_iff_mul_le (by positivity), ← Nat.pow_add,
        show 52 + places = m.log2 by omega]
      exact Nat.log2_self_le pos.ne'
  have hfull' : t = -1074 ∨ (2 : ℚ) ^ 52 ≤ m * 2 ^ e / 2 ^ t := by
    rcases hfull with hfull | hleast
    · right
      refine le_trans ?_ hshows.low
      exact_mod_cast hfull
    · exact Or.inl hleast
  have hexact := exact_roundWithAccuracy hfirst (by omega) hlow (by omega)
  have hrepresentable : Representable (em.roundedMantissa * 2 ^ t) := by
    obtain ⟨hplaced, hvalue⟩ := hexact .positive
    rw [Sign.apply, Int.cast_natCast] at hvalue
    rw [← hvalue]
    exact hplaced.representable
  have hrounds := roundsTo_of_cut hshows.rounded hfull' hrepresentable
  rw [div_mul_cancel₀ _ (zpow_ne_zero t two_ne_zero)] at hrounds
  obtain ⟨hplaced, hvalue⟩ := hexact s
  refine ⟨hplaced, ?_⟩
  rw [hvalue]
  exact hrounds.apply s

theorem apply_shiftLeft (s : Sign) (m places : Nat) (e : Int) :
    (s.apply (m <<< places : ℕ) : ℚ) * 2 ^ (e - places) = s.apply m * 2 ^ e := by
  have hmagnitude := shiftLeft_mul_zpow m places e
  cases s
  · rw [Sign.apply, Sign.apply, Int.cast_neg, Int.cast_neg, neg_mul, neg_mul, neg_inj]
    exact_mod_cast hmagnitude
  · exact_mod_cast hmagnitude

theorem rounded_round {m : Nat} (pos : 0 < m) (e : Int) (s : Sign) :
    Rounded (s.apply m * 2 ^ e) (UnpackedFloat.round .binary64 s m e) := by
  obtain ⟨places, hplaces⟩ : ∃ places, places =
    (e - Format.binary64.targetExponent (totalExponent m e)).toNat := ⟨_, rfl⟩
  have hlog : (m <<< places).log2 = m.log2 + places := by
    rw [Nat.shiftLeft_eq, log2_mul_two_pow pos]
  have hplace : 52 ≤ (m <<< places).log2 ∨ e - places ≤ -1074 := by
    rw [hlog, hplaces, targetExponent_eq, totalExponent]
    omega
  have hpos : 0 < m <<< places := by
    rw [Nat.shiftLeft_eq]
    positivity
  have hrounded := rounded_roundWithAccuracy hpos hplace s
  rw [apply_shiftLeft, hplaces] at hrounded
  exact hrounded

theorem rounded_normalize (m : Int) (e : Int) :
    Rounded (m * 2 ^ e) (UnpackedFloat.normalize .binary64 m e .positive) := by
  unfold UnpackedFloat.normalize
  split
  · rename_i hlt
    have hneg := Int.compare_eq_lt.1 hlt
    have hrounded := rounded_round (m := (-m).toNat) (by omega) e .negative
    rwa [Sign.apply, Int.toNat_of_nonneg (by omega), neg_neg] at hrounded
  · rename_i heq
    rw [Int.compare_eq_eq.1 heq, Int.cast_zero, zero_mul]
    exact (Placed.zero .positive).rounded
  · rename_i hgt
    have hpos := Int.compare_eq_gt.1 hgt
    have hrounded := rounded_round (m := m.toNat) (by omega) e .positive
    rwa [Sign.apply, Int.toNat_of_nonneg (by omega)] at hrounded

theorem Fits.placed {f : UnpackedFloat} (h : Fits f) (hfinite : f.isFinite = true) : Placed f := by
  cases h with
  | notANumber | infinity s => cases hfinite
  | zero s => exact .zero s
  | finite s m e pos digits low high place => exact .finite s m e pos digits low place

/-- A sum is the nearest to the sum without rounding. -/
theorem rounded_add {f g : UnpackedFloat} (hf : Placed f) (hg : Placed g) :
    Rounded (exact f + exact g) (f.add .binary64 g) := by
  cases f with
  | notANumber | infinity s => cases hf
  | zero s =>
    rw [exact_zero, zero_add]
    cases g with
    | notANumber | infinity t => cases hg
    | zero t =>
      have hzero : UnpackedFloat.add .binary64 (.zero s) (.zero t) =
          .zero (if s == t then s else .positive) := by cases s <;> cases t <;> rfl
      rw [hzero, exact_zero, ← exact_zero (if s == t then s else .positive)]
      exact (Placed.zero _).rounded
    | finite t n d pos => exact hg.rounded
  | finite s m e pos =>
    cases g with
    | notANumber | infinity t => cases hg
    | zero t =>
      rw [exact_zero, add_zero]
      exact hf.rounded
    | finite t n d pos' =>
      -- both significands are brought to the smaller exponent, which changes neither value
      have hleft := apply_shiftLeft s m (e - min e d).toNat e
      have hright := apply_shiftLeft t n (d - min e d).toNat d
      rw [Int.toNat_of_nonneg (by omega), sub_sub_cancel] at hleft hright
      rw [exact_finite, exact_finite, ← hleft, ← hright, ← add_mul, ← Int.cast_add]
      exact rounded_normalize _ _

end SkidSteer.Binary64
