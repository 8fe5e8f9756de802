import Mathlib
import SkidSteer.Scalar

namespace SkidSteer.Binary64

open Float.Model Float.Model.UnpackedFloat

/-- What some word unpacks to: a finite value has 53 digits, or fewer at the least exponent. -/
inductive Fits : UnpackedFloat → Prop where
  | notANumber : Fits .notANumber
  | infinity (s : Sign) : Fits (.infinity s)
  | zero (s : Sign) : Fits (.zero s)
  | finite (s : Sign) (m : Nat) (e : Int) (pos : 0 < m) (digits : m < 2 ^ 53) (low : -1074 ≤ e)
      (high : e ≤ 971) (place : 2 ^ 52 ≤ m ∨ e = -1074) : Fits (.finite s m e pos)

theorem Fits.neg {f : UnpackedFloat} (h : Fits f) : Fits f.neg := by
  cases h with
  | notANumber => exact .notANumber
  | infinity s => exact .infinity _
  | zero s => exact .zero _
  | finite s m e pos digits low high place => exact .finite _ m e pos digits low high place

theorem Fits.abs {f : UnpackedFloat} (h : Fits f) : Fits f.abs := by
  cases h with
  | notANumber => exact .notANumber
  | infinity s => exact .infinity _
  | zero s => exact .zero _
  | finite s m e pos digits low high place => exact .finite _ m e pos digits low high place

theorem toNat_implicit (m : BitVec 52) : (1#1 ++ m).toNat = 2 ^ 52 + m.toNat := by
  rw [BitVec.toNat_append, ← Nat.shiftLeft_add_eq_or_of_lt m.isLt]
  rfl

theorem bias_eq : (Format.binary64.exponentBias : Int) = 1023 := rfl

theorem places_eq : Format.binary64.mantissaBitsWithoutImplicit = 52 := rfl

theorem fits_unpack (b : BitVec Format.binary64.numBits) :
    Fits (UnpackedFloat.unpack .binary64 b) := by
  have hm : (unpackMantissa b).toNat < 2 ^ 52 := (unpackMantissa b).isLt
  have he : (unpackExponent b).toNat < 2 ^ 11 := (unpackExponent b).isLt
  have hbias := bias_eq
  have hplaces := places_eq
  rw [UnpackedFloat.unpack]
  split
  · split
    · exact .infinity _
    · exact .notANumber
  · rename_i hinf
    have htop : (unpackExponent b).toNat ≠ 2047 := by
      intro h
      exact hinf (BitVec.eq_of_toNat_eq h)
    split
    · rename_i hzero
      have hleast : (unpackExponent b).toNat = 0 := by rw [hzero]; rfl
      split
      · exact .zero _
      · apply Fits.finite
        · exact Nat.lt_trans hm (by decide)
        · omega
        · omega
        · right
          omega
    · rename_i hzero
      have hleast : (unpackExponent b).toNat ≠ 0 := by
        intro h
        exact hzero (BitVec.eq_of_toNat_eq h)
      have hnormal : (1#1 ++ unpackMantissa b).toNat = 2 ^ 52 + (unpackMantissa b).toNat :=
        toNat_implicit (unpackMantissa b)
      apply Fits.finite
      · rw [hnormal]
        omega
      · omega
      · omega
      · left
        rw [hnormal]
        exact Nat.le_add_right _ _

theorem ofBitVec_unpackSign (s : Sign) (e : BitVec 11) (m : BitVec 52) :
    Sign.ofBitVec (unpackSign (packComponents .binary64 s e m)) = s := by
  have h : unpackSign (packComponents .binary64 s e m) = s.toBitVec := by
    apply BitVec.eq_of_getLsbD_eq
    intro i hi
    obtain rfl : i = 0 := by omega
    simp only [unpackSign, packComponents, BitVec.getLsbD_cast, BitVec.getLsbD_extractLsb]
    rw [BitVec.getLsbD_append, BitVec.getLsbD_append]
    simp
  rw [h]
  cases s <;> rfl

theorem unpack_packComponents (s : Sign) (e : BitVec 11) (m : BitVec 52) :
    UnpackedFloat.unpack .binary64 (packComponents .binary64 s e m) =
      if e = -1#11 then if m = 0#52 then .infinity s else .notANumber
      else if e = 0#11 then
        if h : m = 0#52 then .zero s
        else .finite s m.toNat (-1074) (Nat.pos_of_ne_zero fun hz => h (BitVec.eq_of_toNat_eq hz))
      else .finite s (1#1 ++ m).toNat (e.toNat - 1075) (by rw [toNat_implicit]; omega) := by
  rw [UnpackedFloat.unpack]
  simp only [unpackMantissa_packComponents, unpackExponent_packComponents, ofBitVec_unpackSign,
    bias_eq, places_eq]
  split
  · rfl
  · split
    · rename_i he
      rw [he]
      rfl
    · rfl

theorem unpack_pack {f : UnpackedFloat} (h : Fits f) : (Float.Model.pack f).unpack = f := by
  change UnpackedFloat.unpack .binary64 (UnpackedFloat.pack .binary64 f) = f
  cases h with
  | notANumber => rfl
  | infinity s => cases s <;> rfl
  | zero s => cases s <;> rfl
  | finite s m e pos digits low high place =>
    have hbiased : (e + Format.binary64.exponentBias +
        (Format.binary64.mantissaBitsWithoutImplicit : Int)).toNat = (e + 1075).toNat := by
      rw [bias_eq, places_eq]
      omega
    have hdigits : m.log2 + 1 = Format.binary64.mantissaBits ↔ 2 ^ 52 ≤ m := by
      rw [show Format.binary64.mantissaBits = 53 from rfl, ← Nat.le_log2 (by omega)]
      have := (Nat.log2_lt (by omega)).2 digits
      omega
    have hsize : ¬2 ^ Format.binary64.exponentBits ≤ (e + 1075).toNat + 1 := by
      rw [show Format.binary64.exponentBits = 11 from rfl]
      omega
    rw [UnpackedFloat.pack]
    simp only [hbiased, hdigits]
    rw [if_neg hsize]
    split
    · rename_i hnormal
      have he : (BitVec.ofNat 11 (e + 1075).toNat).toNat = (e + 1075).toNat := by
        rw [BitVec.toNat_ofNat]
        omega
      have hm : (1#1 ++ BitVec.ofNat 52 m).toNat = m := by
        rw [toNat_implicit, BitVec.toNat_ofNat]
        omega
      have hinf : BitVec.ofNat 11 (e + 1075).toNat ≠ -1#11 := by
        intro h
        have : (e + 1075).toNat = 2047 := he.symm.trans (congrArg BitVec.toNat h)
        omega
      have hzero : BitVec.ofNat 11 (e + 1075).toNat ≠ 0#11 := by
        intro h
        have : (e + 1075).toNat = 0 := he.symm.trans (congrArg BitVec.toNat h)
        omega
      rw [unpack_packComponents, if_neg hinf, if_neg hzero]
      simp only [he, hm]
      congr 1
      omega
    · rename_i hnormal
      have hm : (BitVec.ofNat 52 m).toNat = m := by
        rw [BitVec.toNat_ofNat]
        omega
      have hne : BitVec.ofNat 52 m ≠ 0#52 := by
        intro h
        have : m = 0 := hm.symm.trans (congrArg BitVec.toNat h)
        omega
      rw [unpack_packComponents, if_neg (by decide), if_pos rfl, dif_neg hne]
      simp only [hm, place.resolve_left hnormal]

/-- A number that is too large is packed into an infinity. -/
theorem pack_of_overflow {s : Sign} {m : Nat} {e : Int} {pos : 0 < m} (h : 971 < e) :
    Float.Model.pack (.finite s m e pos) = Float.Model.pack (.infinity s) := by
  have hbiased : 2 ^ Format.binary64.exponentBits ≤ (e + Format.binary64.exponentBias +
      (Format.binary64.mantissaBitsWithoutImplicit : Int)).toNat + 1 := by
    rw [bias_eq, places_eq, show Format.binary64.exponentBits = 11 from rfl]
    omega
  simp only [Float.Model.pack, UnpackedFloat.pack, if_pos hbiased]

theorem compare_swap (a b : UnpackedFloat) : b.compare a = (a.compare b).map Ordering.swap := by
  cases a with
  | notANumber => cases b <;> rfl
  | infinity s =>
    cases b with
    | infinity t => cases s <;> cases t <;> rfl
    | _ => cases s <;> rfl
  | zero s =>
    cases b with
    | infinity t | finite t => cases t <;> rfl
    | _ => rfl
  | finite s m e pos =>
    cases b with
    | finite t n d pos =>
      have hplace : compare d e = (compare e d).swap := (Int.compare_swap e d).symm
      have hdigits : compare n m = (compare m n).swap := (Nat.compare_swap m n).symm
      cases s <;> cases t <;>
        simp [UnpackedFloat.compare, hplace, hdigits, Ordering.swap_then]
    | infinity t => cases t <;> cases s <;> rfl
    | _ => cases s <;> rfl

theorem compare_self {a : UnpackedFloat} (h : a.isNaN = false) : a.compare a = some .eq := by
  cases a with
  | notANumber => cases h
  | zero s => rfl
  | infinity s => cases s <;> rfl
  | finite s m e pos => cases s <;> simp [UnpackedFloat.compare]

theorem compare_isSome {a b : UnpackedFloat} (ha : a.isNaN = false) (hb : b.isNaN = false) :
    (a.compare b).isSome := by
  cases a with
  | notANumber => cases ha
  | infinity s =>
    cases b with
    | notANumber => cases hb
    | _ => cases s <;> rfl
  | zero s =>
    cases b with
    | notANumber => cases hb
    | infinity t | finite t => cases t <;> rfl
    | _ => rfl
  | finite s =>
    cases b with
    | notANumber => cases hb
    | infinity t | finite t => cases s <;> cases t <;> rfl
    | _ => cases s <;> rfl

/-- How two floating-point numbers compare, where neither is NaN. -/
def order (x y : Float) : Option Ordering := x.toModel.unpack.compare y.toModel.unpack

variable {x y limit : Float}

theorem lt_iff : x < y ↔ order x y = some .lt := by
  change decide (x.toModel < y.toModel) = true ↔ _
  rw [decide_eq_true_iff]
  change (order x y == some .lt) = true ↔ _
  simp

theorem le_iff : x ≤ y ↔ order x y = some .lt ∨ order x y = some .eq := by
  change decide (x.toModel ≤ y.toModel) = true ↔ _
  rw [decide_eq_true_iff]
  change (order x y).any (·.isLE) = true ↔ _
  cases order x y with
  | none => simp
  | some o => cases o <;> simp

theorem le_refl (hx : x.isNaN = false) : x ≤ x := le_iff.2 (Or.inr (compare_self hx))

theorem not_lt (hx : x.isNaN = false) (hy : y.isNaN = false) : ¬x < y ↔ y ≤ x := by
  obtain ⟨o, ho⟩ := Option.isSome_iff_exists.1 (compare_isSome hx hy)
  have hxy : order x y = some o := ho
  have hyx : order y x = some o.swap := by
    rw [order, compare_swap, ho]
    rfl
  rw [lt_iff, le_iff, hxy, hyx]
  cases o <;> simp

theorem order_of_isNaN (hx : x.isNaN = true) : order x y = none ∧ order y x = none := by
  change x.toModel.unpack.isNaN = true at hx
  unfold order
  cases hu : x.toModel.unpack with
  | notANumber => cases y.toModel.unpack <;> exact ⟨rfl, rfl⟩
  | _ =>
    rw [hu] at hx
    cases hx

theorem not_lt_of_isNaN (hx : x.isNaN = true) : ¬x < y ∧ ¬y < x := by
  obtain ⟨hxy, hyx⟩ := order_of_isNaN (y := y) hx
  rw [lt_iff, lt_iff, hxy, hyx]
  exact ⟨nofun, nofun⟩

theorem isNaN_of_le (h : x ≤ y) : x.isNaN = false := by
  rw [Bool.eq_false_iff]
  intro hx
  rw [le_iff, (order_of_isNaN hx).1] at h
  simp at h

theorem isNaN_of_isFinite (h : x.isFinite = true) : x.isNaN = false := by
  change x.toModel.unpack.isFinite = true at h
  change x.toModel.unpack.isNaN = false
  cases hx : x.toModel.unpack with
  | notANumber =>
    rw [hx] at h
    cases h
  | _ => rfl

/-- A number is kept as a word that is read as a number again. -/
theorem isNaN_ofFloat (x : Float) : (ofFloat x).toFloat.isNaN = x.isNaN :=
  congrArg UnpackedFloat.isNaN (unpack_pack (fits_unpack x.toModel.toBits.toBitVec))

theorem unpack_neg (x : Float) : (-x).toModel.unpack = x.toModel.unpack.neg :=
  unpack_pack (fits_unpack _).neg

theorem unpack_abs (x : Float) : x.abs.toModel.unpack = x.toModel.unpack.abs :=
  unpack_pack (fits_unpack _).abs

@[simp] theorem isNaN_neg (x : Float) : (-x).isNaN = x.isNaN := by
  change (-x).toModel.unpack.isNaN = x.toModel.unpack.isNaN
  rw [unpack_neg]
  cases x.toModel.unpack <;> rfl

@[simp] theorem isNaN_abs (x : Float) : x.abs.isNaN = x.isNaN := by
  change x.abs.toModel.unpack.isNaN = x.toModel.unpack.isNaN
  rw [unpack_abs]
  cases x.toModel.unpack <;> rfl

theorem zero_within (hx : x.isNaN = false) : -x.abs ≤ 0.0 ∧ 0.0 ≤ x.abs := by
  have hzero : (0.0 : Float).toModel.unpack = .zero .positive := rfl
  change x.toModel.unpack.isNaN = false at hx
  simp only [le_iff, order, unpack_neg, unpack_abs, hzero]
  cases hu : x.toModel.unpack with
  | notANumber =>
    rw [hu] at hx
    cases hx
  | zero s => exact ⟨Or.inr rfl, Or.inr rfl⟩
  | infinity s | finite s m e pos => exact ⟨Or.inl rfl, Or.inl rfl⟩

theorem neg_abs_le (hx : x.isNaN = false) : -x.abs ≤ x.abs := by
  change x.toModel.unpack.isNaN = false at hx
  simp only [le_iff, order, unpack_neg, unpack_abs]
  cases hu : x.toModel.unpack with
  | notANumber =>
    rw [hu] at hx
    cases hx
  | zero s => exact Or.inr rfl
  | infinity s | finite s m e pos => exact Or.inl rfl

/-- A number that is clamped to a range around zero comes to lie in it. -/
theorem clamp_within (hx : x.isNaN = false) (hlimit : limit.isNaN = false)
    (hrange : -limit ≤ limit) :
    -limit ≤ Scalar.clamp x (-limit) limit ∧ Scalar.clamp x (-limit) limit ≤ limit := by
  have hneg : (-limit).isNaN = false := (isNaN_neg limit).trans hlimit
  have hordered : ¬limit < -limit := (not_lt hlimit hneg).2 hrange
  unfold Scalar.clamp
  by_cases hhigh : limit < x
  · rw [if_pos hhigh, if_neg hordered]
    exact ⟨hrange, le_refl hlimit⟩
  · rw [if_neg hhigh]
    by_cases hlow : x < -limit
    · rw [if_pos hlow]
      exact ⟨le_refl hneg, hrange⟩
    · rw [if_neg hlow]
      exact ⟨(not_lt hx hneg).1 hlow, (not_lt hlimit hx).1 hhigh⟩

/-- A NaN passes through, since it compares with nothing. -/
theorem clamp_of_isNaN (hx : x.isNaN = true) (low high : Float) : Scalar.clamp x low high = x := by
  unfold Scalar.clamp
  rw [if_neg (not_lt_of_isNaN hx).2, if_neg (not_lt_of_isNaN hx).1]

end SkidSteer.Binary64
