import SkidSteer.Proofs.Binary64.Nearest

namespace SkidSteer.Binary64

open Float.Model Float.Model.UnpackedFloat

variable {x y : Float} {f g : UnpackedFloat}

theorem Reading.exact_unpacked (r : Reading) : exact r.unpacked = r.value := by
  cases r with
  | nan | infinite negative => rfl
  | finite negative m e =>
    rw [unpacked]
    split
    · rename_i hm
      cases negative <;> simp [hm, value]
    · cases negative <;> simp [signOf, Sign.apply, value]

theorem value_eq_exact (x : Float) : value x = exact x.toModel.unpack := by
  have hread : x.toModel.unpack = (ofFloat x).read.unpacked := unpack_word (ofFloat x)
  rw [hread, Reading.exact_unpacked, value]

theorem exact_neg (f : UnpackedFloat) : exact f.neg = -exact f := by
  cases f with
  | notANumber | infinity s | zero s => exact neg_zero.symm
  | finite s m e pos => cases s <;> simp [UnpackedFloat.neg, Sign.apply]

theorem isFinite_neg (x : Float) : (-x).isFinite = x.isFinite := by
  change (-x).toModel.unpack.isFinite = x.toModel.unpack.isFinite
  rw [unpack_neg]
  cases x.toModel.unpack <;> rfl

theorem value_neg (x : Float) : value (-x) = -value x := by
  rw [value_eq_exact, unpack_neg, exact_neg, ← value_eq_exact]

theorem placed_unpack (h : x.isFinite = true) : Placed x.toModel.unpack :=
  Fits.placed (fits_unpack _) h

theorem value_representable (h : x.isFinite = true) : Representable (value x) := by
  rw [value_eq_exact]
  exact (placed_unpack h).representable

/-- A significand in its place counts for less than one with a larger exponent. -/
theorem magnitude_lt {m n : Nat} {d e : Int} (hm : m < 2 ^ 53) (hlow : -1074 ≤ e)
    (hplace : 2 ^ 52 ≤ n ∨ d = -1074) (h : e < d) : (m : ℚ) * 2 ^ e < n * 2 ^ d := by
  have hdigits : (m : ℚ) < 2 ^ 53 := by exact_mod_cast hm
  have hfull : (2 : ℚ) ^ 52 ≤ n := by exact_mod_cast hplace.resolve_right (by omega)
  calc (m : ℚ) * 2 ^ e < 2 ^ 53 * 2 ^ e := by gcongr
    _ = 2 ^ 52 * 2 ^ (e + 1) := by
      rw [zpow_add_one₀ two_ne_zero]
      ring
    _ ≤ 2 ^ 52 * 2 ^ d := by
      gcongr
      · norm_num
      · omega
    _ ≤ n * 2 ^ d := by gcongr

theorem compare_magnitude {m n : Nat} {d e : Int} (hm : m < 2 ^ 53) (hn : n < 2 ^ 53)
    (hlow : -1074 ≤ e) (hlow' : -1074 ≤ d) (hplace : 2 ^ 52 ≤ m ∨ e = -1074)
    (hplace' : 2 ^ 52 ≤ n ∨ d = -1074) :
    (compare e d).then (compare m n) = compare ((m : ℚ) * 2 ^ e) (n * 2 ^ d) := by
  rcases lt_trichotomy e d with hlt | rfl | hgt
  · rw [compare_lt_iff_lt.2 hlt, compare_lt_iff_lt.2 (magnitude_lt hm hlow hplace' hlt)]
    rfl
  · have hunit : (0 : ℚ) < 2 ^ e := zpow_pos two_pos e
    rw [compare_eq_iff_eq.2 rfl, Ordering.eq_then]
    rcases lt_trichotomy m n with hlt | rfl | hgt
    · rw [compare_lt_iff_lt.2 hlt, eq_comm, compare_lt_iff_lt]
      gcongr
    · rw [compare_eq_iff_eq.2 rfl, compare_eq_iff_eq.2 rfl]
    · rw [compare_gt_iff_gt.2 hgt, eq_comm, compare_gt_iff_gt]
      gcongr
  · rw [compare_gt_iff_gt.2 hgt, compare_gt_iff_gt.2 (magnitude_lt hn hlow' hplace hgt)]
    rfl

theorem compare_neg_neg (a b : ℚ) : compare (-a) (-b) = (compare a b).swap := by
  rcases lt_trichotomy a b with hlt | rfl | hgt
  · rw [compare_lt_iff_lt.2 hlt, compare_gt_iff_gt.2 (neg_lt_neg hlt)]
    rfl
  · rw [compare_eq_iff_eq.2 rfl, compare_eq_iff_eq.2 rfl]
    rfl
  · rw [compare_gt_iff_gt.2 hgt, compare_lt_iff_lt.2 (neg_lt_neg hgt)]
    rfl

theorem exact_positive {m : Nat} {e : Int} (pos : 0 < m) :
    exact (.finite .positive m e pos) = m * 2 ^ e ∧ (0 : ℚ) < m * 2 ^ e :=
  ⟨rfl, mul_pos (Nat.cast_pos.2 pos) (zpow_pos two_pos e)⟩

theorem exact_negative {m : Nat} {e : Int} (pos : 0 < m) :
    exact (.finite .negative m e pos) = -(m * 2 ^ e) ∧ (0 : ℚ) < m * 2 ^ e :=
  ⟨by simp [Sign.apply], mul_pos (Nat.cast_pos.2 pos) (zpow_pos two_pos e)⟩

/-- Finite numbers compare as their values do. -/
theorem compare_exact (hf : Placed f) (hg : Placed g) :
    f.compare g = some (compare (exact f) (exact g)) := by
  cases hf with
  | zero s =>
    cases hg with
    | zero t => simp [UnpackedFloat.compare]
    | finite t n d pos =>
      cases t with
      | negative =>
        obtain ⟨hvalue, hpos⟩ := exact_negative (e := d) pos
        rw [exact_zero, hvalue, compare_gt_iff_gt.2 (neg_neg_of_pos hpos)]
        rfl
      | positive =>
        obtain ⟨hvalue, hpos⟩ := exact_positive (e := d) pos
        rw [exact_zero, hvalue, compare_lt_iff_lt.2 hpos]
        rfl
  | finite s m e pos digits low place =>
    cases hg with
    | zero t =>
      cases s with
      | negative =>
        obtain ⟨hvalue, hpos⟩ := exact_negative (e := e) pos
        rw [exact_zero, hvalue, compare_lt_iff_lt.2 (neg_neg_of_pos hpos)]
        rfl
      | positive =>
        obtain ⟨hvalue, hpos⟩ := exact_positive (e := e) pos
        rw [exact_zero, hvalue, compare_gt_iff_gt.2 hpos]
        rfl
    | finite t n d pos' digits' low' place' =>
      have hmagnitude := compare_magnitude digits digits' low low' place place'
      cases s with
      | negative =>
        obtain ⟨hvalue, hpos⟩ := exact_negative (e := e) pos
        cases t with
        | negative =>
          rw [hvalue, (exact_negative pos').1, compare_neg_neg, ← hmagnitude]
          rfl
        | positive =>
          obtain ⟨hvalue', hpos'⟩ := exact_positive (e := d) pos'
          rw [hvalue, hvalue', compare_lt_iff_lt.2 (by linarith)]
          rfl
      | positive =>
        obtain ⟨hvalue, hpos⟩ := exact_positive (e := e) pos
        cases t with
        | negative =>
          obtain ⟨hvalue', hpos'⟩ := exact_negative (e := d) pos'
          rw [hvalue, hvalue', compare_gt_iff_gt.2 (by linarith)]
          rfl
        | positive =>
          rw [hvalue, (exact_positive pos').1, ← hmagnitude]
          rfl

theorem lt_iff_value (hx : x.isFinite = true) (hy : y.isFinite = true) :
    x < y ↔ value x < value y := by
  rw [lt_iff, order, compare_exact (placed_unpack hx) (placed_unpack hy), ← value_eq_exact,
    ← value_eq_exact, Option.some.injEq, compare_lt_iff_lt]

theorem le_iff_value (hx : x.isFinite = true) (hy : y.isFinite = true) :
    x ≤ y ↔ value x ≤ value y := by
  rw [← not_lt (isNaN_of_isFinite hy) (isNaN_of_isFinite hx), lt_iff_value hy hx, Rat.not_lt]

theorem exact_injective (hf : Placed f) (hg : Placed g) (h : exact f = exact g)
    (hne : exact f ≠ 0) : f = g := by
  have hcompare := compare_exact hf hg
  rw [h, compare_eq_iff_eq.2 rfl] at hcompare
  rw [h] at hne
  cases hg with
  | zero t => exact absurd rfl hne
  | finite t n d pos' =>
    cases hf with
    | zero s => exact absurd h.symm hne
    | finite s m e pos =>
      cases s <;> cases t <;> simp [UnpackedFloat.compare, Ordering.then_eq_eq] at hcompare
      all_goals
        obtain ⟨rfl, rfl⟩ := hcompare
        rfl

theorem unpack_injective (h : x.toModel.unpack = y.toModel.unpack) : x = y := by
  obtain ⟨⟨a, ha⟩⟩ := x
  obtain ⟨⟨b, hb⟩⟩ := y
  have hbits : a.toBitVec = b.toBitVec := by
    rw [← pack_unpack ha, ← pack_unpack hb]
    exact congrArg _ h
  obtain rfl : a = b := UInt64.toBitVec_inj.1 hbits
  rfl

/-- A value but zero is that of one number only. -/
theorem eq_of_value_eq (hx : x.isFinite = true) (hy : y.isFinite = true) (h : value x = value y)
    (hne : value x ≠ 0) : x = y := by
  rw [value_eq_exact, value_eq_exact y] at h
  rw [value_eq_exact] at hne
  exact unpack_injective (exact_injective (placed_unpack hx) (placed_unpack hy) h hne)

/-- The least value that is too large for a finite number. -/
def endless : ℚ := 2 ^ 1024

theorem endless_eq : endless = 2 ^ 52 * 2 ^ (972 : ℤ) := by
  rw [endless, show (972 : ℤ) = (972 : ℕ) from rfl, zpow_natCast, ← pow_add]

theorem abs_exact {s : Sign} {m : Nat} {e : Int} (pos : 0 < m) :
    |exact (.finite s m e pos)| = m * 2 ^ e := by
  cases s with
  | negative =>
    obtain ⟨hvalue, hpos⟩ := exact_negative (e := e) pos
    rw [hvalue, abs_neg, abs_of_pos hpos]
  | positive =>
    obtain ⟨hvalue, hpos⟩ := exact_positive (e := e) pos
    rw [hvalue, abs_of_pos hpos]

/-- What rounding makes is packed as it is, unless it is too large. -/
theorem unpack_pack_placed (h : Placed f) (hsmall : |exact f| < endless) :
    (Float.Model.pack f).unpack = f := by
  apply unpack_pack
  cases h with
  | zero s => exact .zero s
  | finite s m e pos digits low place =>
    refine .finite s m e pos digits low ?_ place
    by_contra hhigh
    have hfull : (2 : ℚ) ^ 52 ≤ m := by exact_mod_cast place.resolve_right (by omega)
    have hpower : (2 : ℚ) ^ (972 : ℤ) ≤ 2 ^ e := zpow_le_zpow_right₀ one_le_two (by omega)
    rw [abs_exact, endless_eq] at hsmall
    exact absurd (mul_le_mul hfull hpower (by positivity) (by positivity)) (not_le_of_gt hsmall)

/-- A sum that is not too large is finite, and no number is nearer to the sum without rounding. -/
theorem value_add (hx : x.isFinite = true) (hy : y.isFinite = true)
    (hsmall : |value y| + |value x + value y| < endless) :
    (x + y).isFinite = true ∧ RoundsTo (value x + value y) (value (x + y)) := by
  obtain ⟨sum, hsum⟩ : ∃ sum, sum = x.toModel.unpack.add .binary64 y.toModel.unpack := ⟨_, rfl⟩
  have hrounded := rounded_add (placed_unpack hx) (placed_unpack hy)
  rw [← hsum, ← value_eq_exact, ← value_eq_exact] at hrounded
  have hnear := hrounded.rounds.nearest (value x) (value_representable hx)
  rw [sub_add_cancel_left, abs_neg] at hnear
  have hunpack : (x + y).toModel.unpack = sum := by
    change (Float.Model.pack (x.toModel.unpack.add .binary64 y.toModel.unpack)).unpack = sum
    rw [← hsum]
    apply unpack_pack_placed hrounded.placed
    have htriangle := abs_sub_abs_le_abs_sub (exact sum) (value x + value y)
    linarith
  rw [value_eq_exact (x + y), hunpack]
  refine ⟨?_, hrounded.rounds⟩
  change (x + y).toModel.unpack.isFinite = true
  rw [hunpack]
  cases hrounded.placed <;> rfl

theorem sub_eq_add (f g : UnpackedFloat) :
    f.sub .binary64 g = f.add .binary64 g.neg := by
  cases f with
  | notANumber => rfl
  | infinity s | zero s => cases g <;> rfl
  | finite s m e pos =>
    cases g with
    | finite t n d pos' =>
      cases t with
      | negative =>
        simp only [UnpackedFloat.sub, Sign.apply, sub_neg_eq_add]
        rfl
      | positive => rfl
    | notANumber | infinity t | zero t => rfl

/-- So is a difference. -/
theorem value_sub (hx : x.isFinite = true) (hy : y.isFinite = true)
    (hsmall : |value y| + |value x - value y| < endless) :
    (x - y).isFinite = true ∧ RoundsTo (value x - value y) (value (x - y)) := by
  have hsub : x - y = x + -y := by
    change Float.ofModel (.pack (x.toModel.unpack.sub .binary64 y.toModel.unpack)) =
      Float.ofModel (.pack (x.toModel.unpack.add .binary64 (-y).toModel.unpack))
    rw [unpack_neg, sub_eq_add]
  have hadd := value_add hx ((isFinite_neg y).trans hy)
  rw [value_neg, abs_neg, ← sub_eq_add_neg] at hadd
  rw [hsub]
  exact hadd hsmall

theorem abs_value_le (hx : x.isFinite = true) : |value x| ≤ endless - 2 ^ (971 : ℤ) := by
  have hfits : Fits x.toModel.unpack := fits_unpack _
  have hlargest : endless - 2 ^ (971 : ℤ) = (2 ^ 53 - 1) * 2 ^ (971 : ℤ) := by
    rw [endless_eq, show (972 : ℤ) = 971 + 1 from rfl, zpow_add_one₀ two_ne_zero]
    ring
  have hplaced := placed_unpack hx
  rw [value_eq_exact, hlargest]
  cases hu : x.toModel.unpack with
  | notANumber | infinity s =>
    rw [hu] at hplaced
    cases hplaced
  | zero s =>
    rw [exact_zero, abs_zero]
    positivity
  | finite s m e pos =>
    rw [hu] at hfits
    cases hfits with
    | finite _ _ _ _ digits low high place =>
      have hdigits : (m : ℚ) ≤ 2 ^ 53 - 1 := by
        rw [le_sub_iff_add_le]
        exact_mod_cast digits
      have hpower : (2 : ℚ) ^ e ≤ 2 ^ (971 : ℤ) := zpow_le_zpow_right₀ one_le_two high
      rw [abs_exact]
      exact mul_le_mul hdigits hpower (by positivity) (by norm_num)

theorem isFinite_iff_read : x.isFinite = true ↔
    ∃ negative m e, (ofFloat x).read = .finite negative m e := by
  have hread : x.toModel.unpack = (ofFloat x).read.unpacked := unpack_word (ofFloat x)
  change x.toModel.unpack.isFinite = true ↔ _
  rw [hread]
  cases (ofFloat x).read with
  | nan | infinite negative => exact iff_of_false nofun nofun
  | finite negative m e =>
    refine iff_of_true ?_ ⟨negative, m, e, rfl⟩
    rw [Reading.unpacked]
    split <;> rfl

/-- A sign is a factor of one, either way. -/
theorem value_finite (negative : Bool) : ∃ sign : ℤ, |sign| = 1 ∧
    ∀ m e, (Reading.finite negative m e).value = sign * (m * 2 ^ e) := by
  cases negative
  · exact ⟨1, rfl, fun m e => by rw [Int.cast_one, one_mul]; rfl⟩
  · exact ⟨-1, rfl, fun m e => by rw [Int.cast_neg, Int.cast_one, neg_one_mul]; rfl⟩

/-- A remainder is not rounded: it is what is left of the number after some whole multiple of what
is divided by, and is smaller than that. -/
theorem value_remainder (hx : x.isFinite = true) (hy : y.isFinite = true) (hne : value y ≠ 0) :
    (remainder x y).isFinite = true ∧ |value (remainder x y)| < |value y| ∧
      ∃ times : ℤ, value x = times * value y + value (remainder x y) := by
  obtain ⟨negative, m, e, hm⟩ := isFinite_iff_read.1 hx
  obtain ⟨opposite, n, d, hn⟩ := isFinite_iff_read.1 hy
  obtain ⟨hdigits, hlow, hhigh⟩ := read_bounds hm
  obtain ⟨hdigits', hlow', hhigh'⟩ := read_bounds hn
  obtain ⟨sign, hsign, hsigned⟩ := value_finite negative
  obtain ⟨sign', hsign', hsigned'⟩ := value_finite opposite
  -- both significands are brought to the smaller exponent, which changes neither value
  obtain ⟨last, hlast⟩ : ∃ last, last = min e d := ⟨_, rfl⟩
  obtain ⟨a, ha⟩ : ∃ a, a = m <<< (e - last).toNat := ⟨_, rfl⟩
  obtain ⟨b, hb⟩ : ∃ b, b = n <<< (d - last).toNat := ⟨_, rfl⟩
  have hleft : value x = sign * (a * 2 ^ last) := by
    rw [value, hm, hsigned, ha, ← shiftLeft_mul_zpow m (e - last).toNat e]
    congr 3
    omega
  have hright : value y = sign' * (b * 2 ^ last) := by
    rw [value, hn, hsigned', hb, ← shiftLeft_mul_zpow n (d - last).toNat d]
    congr 3
    omega
  have hnone : n ≠ 0 := by
    intro hzero
    rw [value, hn, hsigned', hzero] at hne
    simp at hne
  have hpos : 0 < b := by
    rw [hb, Nat.shiftLeft_eq]
    positivity
  have hsmall : a % b < b := Nat.mod_lt a hpos
  have hrest : a % b < 2 ^ 53 := by
    rcases min_choice e d with hmin | hmin
    · have hsame : a = m := by rw [ha, hlast, hmin, sub_self, Int.toNat_zero, Nat.shiftLeft_zero]
      exact lt_of_le_of_lt (Nat.mod_le a b) (by omega)
    · have hsame : b = n := by rw [hb, hlast, hmin, sub_self, Int.toNat_zero, Nat.shiftLeft_zero]
      omega
  obtain ⟨r, t, hread, hsame⟩ := read_ofFinite hrest (e := last) (by omega) (by omega) negative
  have hword : remainder x y = (ofFinite negative (a % b) last).toFloat := by
    unfold remainder
    rw [hm, hn]
    simp only [if_neg hnone, ← hlast, ← ha, ← hb]
  have hvalue : value (remainder x y) = sign * ((a % b : ℕ) * 2 ^ last) := by
    rw [value_eq_exact, hword, unpack_toFloat, Reading.exact_unpacked, hread, hsigned, hsame]
  have habs : ∀ (σ : ℤ) (v : ℚ), |σ| = 1 → |σ * v| = |v| := by
    intro σ v hσ
    rw [abs_mul, ← Int.cast_abs, hσ, Int.cast_one, one_mul]
  refine ⟨?_, ?_, sign * sign' * (a / b : ℕ), ?_⟩
  · change (remainder x y).toModel.unpack.isFinite = true
    rw [hword, unpack_toFloat, hread, Reading.unpacked]
    split <;> rfl
  · rw [hvalue, hright, habs _ _ hsign, habs _ _ hsign', abs_of_nonneg (by positivity),
      abs_of_nonneg (by positivity)]
    gcongr
  · have hwhole : (a : ℚ) = b * (a / b : ℕ) + (a % b : ℕ) := by
      exact_mod_cast (Nat.div_add_mod a b).symm
    have hone : (sign' : ℚ) * sign' = 1 := by
      exact_mod_cast (abs_mul_abs_self sign').symm.trans (by rw [hsign', one_mul])
    rw [hleft, hright, hvalue, hwhole, Int.cast_mul, Int.cast_mul, Int.cast_natCast]
    linear_combination (-sign * b * (a / b : ℕ) * 2 ^ last : ℚ) * hone

end SkidSteer.Binary64
