import SkidSteer.Proofs.Binary64.Order

namespace SkidSteer.Binary64

open Float.Model Float.Model.UnpackedFloat

/-- No number below zero: a NaN, a zero of either sign, or a number above. -/
def NotBelow : UnpackedFloat → Prop
  | .infinity s | .finite s _ _ _ => s = .positive
  | _ => True

/-- Nothing with a minus sign: not even a zero. -/
def Unsigned : UnpackedFloat → Prop
  | .infinity s | .zero s | .finite s _ _ _ => s = .positive
  | .notANumber => True

section Unpacked

variable {f g : UnpackedFloat} {spec : Format}

theorem Unsigned.notBelow (h : Unsigned f) : NotBelow f := by
  cases f with
  | notANumber | zero s => trivial
  | infinity s | finite s m e pos => exact h

theorem unsigned_round (m : Nat) (e : Int) (a : Accuracy) :
    Unsigned (roundWithAccuracy spec .positive m e a) := by
  simp only [roundWithAccuracy]
  split
  · rfl
  · rfl

theorem notBelow_normalize {m : Int} (h : 0 ≤ m) (e : Int) :
    NotBelow (UnpackedFloat.normalize spec m e .positive) := by
  unfold UnpackedFloat.normalize
  split
  · rename_i hlt
    have := Int.compare_eq_lt.1 hlt
    omega
  · trivial
  · exact (unsigned_round _ _ _).notBelow

theorem NotBelow.add (hf : NotBelow f) (hg : NotBelow g) : NotBelow (f.add spec g) := by
  cases f <;> cases g <;> try trivial
  case infinity.infinity s t =>
    cases (hf : s = .positive)
    cases (hg : t = .positive)
    rfl
  case zero.zero s t => cases s <;> cases t <;> trivial
  case finite.finite s m e pos t n d pos' =>
    cases (hf : s = .positive)
    cases (hg : t = .positive)
    exact notBelow_normalize (Int.add_nonneg (Int.natCast_nonneg _) (Int.natCast_nonneg _)) _

theorem NotBelow.mul (hf : NotBelow f) (hg : NotBelow g) : NotBelow (f.mul spec g) := by
  cases f <;> cases g <;> try trivial
  case infinity.infinity s t | infinity.finite s t m e pos | finite.infinity s m e pos t =>
    cases (hf : s = .positive)
    cases (hg : t = .positive)
    rfl
  case finite.finite s m e pos t n d pos' =>
    cases (hf : s = .positive)
    cases (hg : t = .positive)
    exact (unsigned_round _ _ _).notBelow

theorem Unsigned.mul (hf : Unsigned f) (hg : Unsigned g) : Unsigned (f.mul spec g) := by
  cases f <;> cases g <;> try trivial
  case finite.finite s m e pos t n d pos' =>
    cases (hf : s = .positive)
    cases (hg : t = .positive)
    exact unsigned_round _ _ _
  all_goals
    cases (hf : _ = Sign.positive)
    cases (hg : _ = Sign.positive)
    trivial

theorem NotBelow.div (hf : NotBelow f) (hg : Unsigned g) : NotBelow (f.div spec g) := by
  cases f <;> cases g <;> try trivial
  case infinity.zero s t | infinity.finite s t m e pos | finite.zero s m e pos t =>
    cases (hf : s = .positive)
    cases (hg : t = .positive)
    rfl
  case finite.finite s m e pos t n d pos' =>
    cases (hf : s = .positive)
    cases (hg : t = .positive)
    exact (unsigned_round _ _ _).notBelow

theorem notBelow_sqrt (f : UnpackedFloat) : NotBelow (f.sqrt spec) := by
  cases f with
  | notANumber | zero s => trivial
  | infinity s => cases s <;> trivial
  | finite s m e pos =>
    cases s
    · trivial
    · exact (unsigned_round _ _ _).notBelow

/-- Numbers above zero compare by their exponents, and then by their significands. -/
theorem not_lt_finite {m n : Nat} {d e : Int} {pos : 0 < m} {pos' : 0 < n}
    (h : (UnpackedFloat.finite .positive m e pos).compare (.finite .positive n d pos') ≠
      some .lt) : d < e ∨ d = e ∧ n ≤ m := by
  simp only [UnpackedFloat.compare, ne_eq, Option.some.injEq] at h
  rcases Int.lt_trichotomy d e with hlt | rfl | hgt
  · exact Or.inl hlt
  · refine Or.inr ⟨rfl, Nat.le_of_not_lt fun hlt => h ?_⟩
    simp [Nat.compare_eq_lt.2 hlt]
  · rw [Int.compare_eq_lt.2 hgt] at h
    exact absurd rfl h

/-- Of two numbers the one with the larger exponent has the larger significand at the smaller. -/
theorem shiftLeft_le {m n : Nat} {d e : Int} (hn : n < 2 ^ 53) (hlow : -1074 ≤ d)
    (hplace : 2 ^ 52 ≤ m ∨ e = -1074) (h : d < e ∨ d = e ∧ n ≤ m) :
    n <<< (d - min e d).toNat ≤ m <<< (e - min e d).toNat := by
  simp only [Nat.shiftLeft_eq]
  rcases h with h | ⟨rfl, h⟩
  · have hm : 2 ^ 52 ≤ m := hplace.resolve_right (by omega)
    obtain ⟨more, hmore⟩ : ∃ more, (e - min e d).toNat = more + 1 :=
      ⟨(e - min e d).toNat - 1, by omega⟩
    have hnone : (d - min e d).toNat = 0 := by omega
    have hpow : 1 ≤ 2 ^ more := Nat.one_le_two_pow
    rw [hnone, hmore, Nat.pow_succ, Nat.pow_zero, Nat.mul_one]
    calc n ≤ 2 ^ 52 * (1 * 2) := by omega
      _ ≤ m * (2 ^ more * 2) := Nat.mul_le_mul hm (Nat.mul_le_mul_right 2 hpow)
  · exact Nat.mul_le_mul_right _ h

theorem NotBelow.sub (hf : NotBelow f) (hg : NotBelow g) (fits : Fits f) (fits' : Fits g)
    (h : f.compare g ≠ some .lt) : NotBelow (f.sub spec g) := by
  cases f <;> cases g <;> try trivial
  case infinity.infinity s t =>
    cases (hf : s = .positive)
    cases (hg : t = .positive)
    trivial
  case zero.zero s t => cases s <;> cases t <;> trivial
  case zero.infinity s t | finite.infinity s m e pos t | zero.finite s t m e pos =>
    cases (hg : t = .positive)
    exact absurd (by cases s <;> rfl) h
  case finite.finite s m e pos t n d pos' =>
    cases (hf : s = .positive)
    cases (hg : t = .positive)
    cases fits with
    | finite _ _ _ _ digits low high place =>
      cases fits' with
      | finite _ _ _ _ digits' low' high' place' =>
        have hle := shiftLeft_le digits' low' place (not_lt_finite h)
        exact notBelow_normalize (Int.sub_nonneg.2 (Int.ofNat_le.2 hle)) _

end Unpacked

theorem unsigned_components (e : BitVec 11) (m : BitVec 52) :
    Unsigned (UnpackedFloat.unpack .binary64 (packComponents .binary64 .positive e m)) := by
  rw [unpack_packComponents]
  split
  · split
    · rfl
    · trivial
  · split
    · split
      · rfl
      · rfl
    · rfl

theorem Unsigned.pack {f : UnpackedFloat} (h : Unsigned f) :
    Unsigned (Float.Model.pack f).unpack := by
  change Unsigned (UnpackedFloat.unpack .binary64 (UnpackedFloat.pack .binary64 f))
  cases f with
  | notANumber => trivial
  | zero s | infinity s =>
    cases (h : s = .positive)
    exact unsigned_components _ _
  | finite s m e pos =>
    cases (h : s = .positive)
    simp only [UnpackedFloat.pack]
    split
    · exact unsigned_components _ _
    · split
      · exact unsigned_components _ _
      · exact unsigned_components _ _

theorem NotBelow.pack {f : UnpackedFloat} (h : NotBelow f) :
    NotBelow (Float.Model.pack f).unpack := by
  cases f with
  | notANumber => trivial
  | zero s => cases s <;> trivial
  | infinity s => exact (Unsigned.pack (f := .infinity s) h).notBelow
  | finite s m e pos => exact (Unsigned.pack (f := .finite s m e pos) h).notBelow

variable {x y : Float}

theorem unpack_zero : (0.0 : Float).toModel.unpack = .zero .positive := rfl

theorem not_lt_zero_iff : ¬x < 0.0 ↔ NotBelow x.toModel.unpack := by
  rw [lt_iff, order, unpack_zero]
  cases x.toModel.unpack with
  | notANumber | zero s => simp [NotBelow, UnpackedFloat.compare]
  | infinity s | finite s m e pos => cases s <;> simp [NotBelow, UnpackedFloat.compare]

theorem unsigned_of_lt (h : 0.0 < x) : Unsigned x.toModel.unpack := by
  rw [lt_iff, order, unpack_zero] at h
  cases hu : x.toModel.unpack with
  | notANumber => trivial
  | zero s =>
    rw [hu] at h
    cases h
  | infinity s | finite s m e pos =>
    rw [hu] at h
    cases s
    · cases h
    · rfl

theorem unsigned_mul (hx : Unsigned x.toModel.unpack) (hy : Unsigned y.toModel.unpack) :
    Unsigned (x * y).toModel.unpack :=
  (hx.mul hy).pack

theorem not_lt_zero_of_lt (h : 0.0 < x) : ¬x < 0.0 :=
  not_lt_zero_iff.2 (unsigned_of_lt h).notBelow

theorem not_add_lt_zero (hx : ¬x < 0.0) (hy : ¬y < 0.0) : ¬x + y < 0.0 :=
  not_lt_zero_iff.2 ((not_lt_zero_iff.1 hx).add (not_lt_zero_iff.1 hy)).pack

theorem not_mul_lt_zero (hx : ¬x < 0.0) (hy : ¬y < 0.0) : ¬x * y < 0.0 :=
  not_lt_zero_iff.2 ((not_lt_zero_iff.1 hx).mul (not_lt_zero_iff.1 hy)).pack

/-- A quotient by what has no minus sign; a zero with one would turn the sign. -/
theorem not_div_lt_zero (hx : ¬x < 0.0) (hy : Unsigned y.toModel.unpack) : ¬x / y < 0.0 :=
  not_lt_zero_iff.2 ((not_lt_zero_iff.1 hx).div hy).pack

theorem not_sqrt_lt_zero (x : Float) : ¬x.sqrt < 0.0 :=
  not_lt_zero_iff.2 (notBelow_sqrt _).pack

/-- What is not smaller leaves a difference that is not below zero. -/
theorem not_sub_lt_zero (hx : ¬x < 0.0) (hy : ¬y < 0.0) (h : ¬x < y) : ¬x - y < 0.0 :=
  not_lt_zero_iff.2 ((not_lt_zero_iff.1 hx).sub (not_lt_zero_iff.1 hy) (fits_unpack _)
    (fits_unpack _) fun hlt => h (lt_iff.2 hlt)).pack

end SkidSteer.Binary64
