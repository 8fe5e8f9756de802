import SkidSteer.Proofs.Binary64.Order
import SkidSteer.Trajectory

namespace SkidSteer.Binary64

open Float.Model Float.Model.UnpackedFloat

theorem toBitVec_ofBitVec (b : BitVec 1) : (Sign.ofBitVec b).toBitVec = b := by
  revert b
  decide

theorem packComponents_unpack (b : BitVec Format.binary64.numBits) :
    packComponents .binary64 (Sign.ofBitVec (unpackSign b)) (unpackExponent b) (unpackMantissa b) =
      b := by
  apply BitVec.eq_of_getLsbD_eq
  intro i hi
  simp only [packComponents, toBitVec_ofBitVec, BitVec.getLsbD_append, unpackMantissa,
    unpackExponent, unpackSign, BitVec.getLsbD_cast, BitVec.getLsbD_extractLsb]
  grind

theorem packComponents_eq {b : BitVec Format.binary64.numBits} {e : BitVec 11} {m : BitVec 52}
    (he : unpackExponent b = e) (hm : unpackMantissa b = m) :
    packComponents .binary64 (Sign.ofBitVec (unpackSign b)) e m = b := by
  rw [← he, ← hm]
  exact packComponents_unpack b

section Pack

variable {s : Sign} {e : BitVec 11} {m : BitVec 52}

theorem pack_normal (hinf : e ≠ -1#11) (hzero : e ≠ 0#11) (pos : 0 < (1#1 ++ m).toNat) :
    UnpackedFloat.pack .binary64 (.finite s (1#1 ++ m).toNat (e.toNat - 1075) pos) =
      packComponents .binary64 s e m := by
  have he : e.toNat < 2 ^ 11 := e.isLt
  have htop : e.toNat ≠ 2047 := fun h => hinf (BitVec.eq_of_toNat_eq h)
  have hleast : e.toNat ≠ 0 := fun h => hzero (BitVec.eq_of_toNat_eq h)
  have hm : (1#1 ++ m).toNat = 2 ^ 52 + m.toNat := toNat_implicit m
  have hlog : (1#1 ++ m).toNat.log2 + 1 = Format.binary64.mantissaBits := by
    have hlow := (Nat.le_log2 (k := 52) (by omega)).2 (show 2 ^ 52 ≤ (1#1 ++ m).toNat by omega)
    have hhigh := (Nat.log2_lt (k := 53) (by omega)).2 (show (1#1 ++ m).toNat < 2 ^ 53 by omega)
    rw [show Format.binary64.mantissaBits = 53 from rfl]
    omega
  have hbiased : ((e.toNat : Int) - 1075 + Format.binary64.exponentBias +
      (Format.binary64.mantissaBitsWithoutImplicit : Int)).toNat = e.toNat := by
    rw [bias_eq, places_eq]
    omega
  have hsize : ¬2 ^ Format.binary64.exponentBits ≤ e.toNat + 1 := by
    rw [show Format.binary64.exponentBits = 11 from rfl]
    omega
  have hexponent : BitVec.ofNat 11 e.toNat = e :=
    BitVec.eq_of_toNat_eq (by rw [BitVec.toNat_ofNat]; omega)
  have hmantissa : BitVec.ofNat 52 (1#1 ++ m).toNat = m :=
    BitVec.eq_of_toNat_eq (by rw [BitVec.toNat_ofNat]; omega)
  rw [UnpackedFloat.pack]
  simp only [hbiased]
  rw [if_neg hsize, if_pos hlog, hexponent, hmantissa]

theorem pack_subnormal (pos : 0 < m.toNat) :
    UnpackedFloat.pack .binary64 (.finite s m.toNat (-1074) pos) =
      packComponents .binary64 s 0#11 m := by
  have hm : m.toNat < 2 ^ 52 := m.isLt
  have hshort : ¬m.toNat.log2 + 1 = Format.binary64.mantissaBits := by
    have := (Nat.log2_lt (by omega)).2 hm
    rw [show Format.binary64.mantissaBits = 53 from rfl]
    omega
  have hmantissa : BitVec.ofNat 52 m.toNat = m := BitVec.eq_of_toNat_eq (Nat.mod_eq_of_lt hm)
  rw [UnpackedFloat.pack]
  simp only [hshort]
  rw [if_neg (by decide), if_neg not_false, hmantissa]

end Pack

/-- What a valid word unpacks to is packed into the same word. -/
theorem pack_unpack {b : BitVec Format.binary64.numBits} (h : Format.binary64.Valid b) :
    UnpackedFloat.pack .binary64 (UnpackedFloat.unpack .binary64 b) = b := by
  rw [UnpackedFloat.unpack]
  split
  · rename_i hinf
    split
    · rename_i hzero
      exact packComponents_eq hinf hzero
    · rename_i hnan
      exact (h.eq_packedNaN hinf hnan).symm
  · rename_i hinf
    split
    · rename_i hleast
      split
      · rename_i hnone
        exact packComponents_eq hleast hnone
      · simp only [hleast]
        exact (pack_subnormal _).trans (packComponents_eq hleast rfl)
    · rename_i hleast
      exact (pack_normal hinf hleast _).trans (packComponents_unpack b)

@[simp] theorem toFloat_ofFloat (x : Float) : (ofFloat x).toFloat = x := by
  obtain ⟨⟨bits, valid⟩⟩ := x
  have hsame : UInt64.ofBitVec (UnpackedFloat.pack .binary64
      (UnpackedFloat.unpack .binary64 bits.toBitVec)) = bits := by
    rw [pack_unpack valid]
  apply congrArg Float.ofModel
  change Float.Model.mk _ _ = Float.Model.mk _ _
  congr 1

@[simp] theorem sample_toFloat_ofFloat (sample : Sample Float) :
    (sample.map ofFloat).map toFloat = sample := by
  simp [Sample.map, Segment.map]

def signOf (negative : Bool) : Sign := if negative then .negative else .positive

def Reading.unpacked : Reading → UnpackedFloat
  | .nan => .notANumber
  | .infinite negative => .infinity (signOf negative)
  | .finite negative significand exponent =>
    if h : significand = 0 then .zero (signOf negative)
    else .finite (signOf negative) significand exponent (Nat.pos_of_ne_zero h)

section Parts

variable (w : Binary64)

theorem toNat_unpackExponent :
    (@unpackExponent .binary64 w.bits.toBitVec).toNat = w.exponentField := by
  simp only [unpackExponent, BitVec.toNat_cast, BitVec.extractLsb_toNat, Nat.shiftRight_eq_div_pow]
  rfl

theorem toNat_unpackMantissa :
    (@unpackMantissa .binary64 w.bits.toBitVec).toNat = w.fractionField := by
  simp only [unpackMantissa, BitVec.toNat_cast, BitVec.extractLsb_toNat, Nat.shiftRight_zero]
  rfl

theorem ofBitVec_unpackSign_word :
    Sign.ofBitVec (@unpackSign .binary64 w.bits.toBitVec) = signOf w.negative := by
  have hbits : w.bits.toNat < 2 ^ 64 := w.bits.toNat_lt
  have hsign : (@unpackSign .binary64 w.bits.toBitVec).toNat = w.bits.toNat / 2 ^ 63 := by
    simp only [unpackSign, BitVec.toNat_cast, BitVec.extractLsb_toNat, Nat.shiftRight_eq_div_pow]
    change w.bits.toNat / 2 ^ 63 % 2 = _
    omega
  by_cases h : Nat.pow 2 63 ≤ w.bits.toNat
  · have hone : @unpackSign .binary64 w.bits.toBitVec ≠ 0#1 := by
      intro hzero
      rw [hzero] at hsign
      have hnone : w.bits.toNat / 2 ^ 63 = 0 := hsign.symm
      have : 2 ^ 63 ≤ w.bits.toNat := h
      omega
    rw [negative, decide_eq_true h, Sign.ofBitVec, if_neg hone]
    rfl
  · have hzero : @unpackSign .binary64 w.bits.toBitVec = 0#1 := by
      apply BitVec.eq_of_toNat_eq
      rw [hsign]
      exact Nat.div_eq_of_lt (Nat.lt_of_not_le h)
    rw [negative, decide_eq_false h, Sign.ofBitVec, if_pos hzero]
    rfl

/-- A word unpacks to what it is read as. -/
theorem unpack_word : UnpackedFloat.unpack .binary64 w.bits.toBitVec = w.read.unpacked := by
  have hexponent := toNat_unpackExponent w
  have hfraction := toNat_unpackMantissa w
  have htop : @unpackExponent .binary64 w.bits.toBitVec = -1#11 ↔
      w.exponentField = 2047 := by
    rw [← BitVec.toNat_inj, hexponent]
    rfl
  have hleast : @unpackExponent .binary64 w.bits.toBitVec = 0#11 ↔
      w.exponentField = 0 := by
    rw [← BitVec.toNat_inj, hexponent]
    rfl
  have hnone : @unpackMantissa .binary64 w.bits.toBitVec = 0#52 ↔
      w.fractionField = 0 := by
    rw [← BitVec.toNat_inj, hfraction]
    rfl
  have hnormal : (1#1 ++ @unpackMantissa .binary64 w.bits.toBitVec).toNat =
      Nat.pow 2 52 + w.fractionField := by
    rw [← hfraction]
    exact toNat_implicit _
  rw [UnpackedFloat.unpack, read]
  simp only [ofBitVec_unpackSign_word, htop, hleast, hnone]
  split
  · split <;> rfl
  · split
    · rename_i hzero
      simp only [Reading.unpacked, hexponent, hfraction, hzero]
      rfl
    · have hpos : ¬Nat.pow 2 52 + w.fractionField = 0 := by
        have : 0 < Nat.pow 2 52 := by decide
        omega
      simp only [Reading.unpacked, hnormal, hexponent, dif_neg hpos]
      rfl

end Parts

theorem unpack_toFloat (w : Binary64) : w.toFloat.toModel.unpack = w.read.unpacked :=
  (unpack_pack (fits_unpack _)).trans (unpack_word w)

/-- A word that is read as finite has 53 digits, and its exponent is one of a word. -/
theorem read_bounds {w : Binary64} {negative : Bool} {m : Nat} {e : Int}
    (h : w.read = .finite negative m e) : m < 2 ^ 53 ∧ -1074 ≤ e ∧ e ≤ 971 := by
  have hfraction : w.fractionField < 2 ^ 52 := Nat.mod_lt _ (by decide)
  have hexponent : w.exponentField < 2 ^ 11 := Nat.mod_lt _ (by decide)
  rw [read, Nat.pow_eq] at h
  split at h
  · split at h <;> cases h
  · split at h
    · obtain ⟨-, rfl, rfl⟩ := Reading.finite.inj h
      omega
    · obtain ⟨-, rfl, rfl⟩ := Reading.finite.inj h
      omega

/-- The word that is made of a sign, an exponent and a fraction has these. -/
theorem fields_ofNat {w : Binary64} {negative : Bool} {magnitude exponent fraction : Nat}
    (h : w.bits = UInt64.ofNat (if negative then 2 ^ 63 + magnitude else magnitude))
    (hmagnitude : magnitude = exponent * 2 ^ 52 + fraction) (hexponent : exponent < 2 ^ 11)
    (hfraction : fraction < 2 ^ 52) :
    w.negative = negative ∧ w.exponentField = exponent ∧ w.fractionField = fraction := by
  have hbits : w.bits.toNat = if negative then 2 ^ 63 + magnitude else magnitude := by
    rw [h, UInt64.toNat_ofNat']
    apply Nat.mod_eq_of_lt
    split <;> omega
  rw [Binary64.negative, exponentField, fractionField, hbits]
  simp only [Nat.pow_eq]
  cases negative
  · simp only [Bool.false_eq_true, if_false, decide_eq_false_iff_not]
    omega
  · simp only [if_true, decide_eq_true_eq]
    omega

end SkidSteer.Binary64
