import SkidSteer.Storage.Codec

namespace SkidSteer.Storage

@[simp] theorem length_littleEndian (count n : Nat) : (littleEndian count n).length = count := by
  induction count generalizing n with
  | zero => rfl
  | succ count ih => simp [littleEndian, ih]

theorem ofLittleEndian_littleEndian {count n : Nat} (h : n < Nat.pow 256 count) :
    ofLittleEndian (littleEndian count n) = n := by
  induction count generalizing n with
  | zero =>
    have hn : n = 0 := Nat.lt_one_iff.mp h
    subst hn
    rfl
  | succ count ih =>
    have hpow : Nat.pow 256 (count + 1) = Nat.pow 256 count * 256 := rfl
    have hhigh : n / 256 < Nat.pow 256 count := by
      rw [Nat.div_lt_iff_lt_mul (by decide), ← hpow]
      exact h
    have hlow : (UInt8.ofNat n).toNat = n % 256 := UInt8.toNat_ofNat'
    rw [littleEndian, ofLittleEndian, ih hhigh, hlow]
    omega

theorem ofLittleEndian_lt (bytes : List UInt8) :
    ofLittleEndian bytes < Nat.pow 256 bytes.length := by
  induction bytes with
  | nil => exact Nat.zero_lt_one
  | cons byte rest ih =>
    have hpow : Nat.pow 256 (byte :: rest).length = Nat.pow 256 rest.length * 256 := rfl
    have hbyte : byte.toNat < 256 := byte.toNat_lt
    rw [hpow, ofLittleEndian]
    omega

theorem littleEndian_ofLittleEndian (bytes : List UInt8) :
    littleEndian bytes.length (ofLittleEndian bytes) = bytes := by
  induction bytes with
  | nil => rfl
  | cons byte rest ih =>
    have hbyte : byte.toNat < 256 := byte.toNat_lt
    have hdiv : (byte.toNat + 256 * ofLittleEndian rest) / 256 = ofLittleEndian rest := by omega
    have hlow : UInt8.ofNat (byte.toNat + 256 * ofLittleEndian rest) = byte := by
      apply UInt8.toNat_inj.mp
      rw [UInt8.toNat_ofNat']
      omega
    rw [List.length_cons, littleEndian, ofLittleEndian, hdiv, ih, hlow]

@[simp] theorem length_wordBytes (w : Binary64) : (wordBytes w).length = 8 :=
  length_littleEndian 8 _

@[simp] theorem wordOfBytes_wordBytes (w : Binary64) : wordOfBytes (wordBytes w) = w := by
  have hlt : w.bits.toNat < Nat.pow 256 8 := w.bits.toNat_lt
  rw [wordOfBytes, wordBytes, ofLittleEndian_littleEndian hlt, UInt64.ofNat_toNat]

theorem wordBytes_wordOfBytes {bytes : List UInt8} (h : bytes.length = 8) :
    wordBytes (wordOfBytes bytes) = bytes := by
  have hlt : ofLittleEndian bytes < Nat.pow 256 8 := h ▸ ofLittleEndian_lt bytes
  have hword : (UInt64.ofNat (ofLittleEndian bytes)).toNat = ofLittleEndian bytes :=
    UInt64.toNat_ofNat_of_lt' hlt
  rw [wordBytes, wordOfBytes, hword, ← h, littleEndian_ofLittleEndian]

def segmentBytes (s : Segment Binary64) : List UInt8 := (segmentFields s).flatten

/-- The segment that the first twenty-four bytes stand for. -/
def segmentOfBytes (bytes : List UInt8) : Segment Binary64 :=
  ⟨wordOfBytes (bytes.take 8), wordOfBytes ((bytes.drop 8).take 8),
    wordOfBytes ((bytes.drop 16).take 8)⟩

@[simp] theorem length_segmentBytes (s : Segment Binary64) : (segmentBytes s).length = 24 := by
  simp [segmentBytes, segmentFields]

theorem segmentOfBytes_append (s : Segment Binary64) (rest : List UInt8) :
    segmentOfBytes (segmentBytes s ++ rest) = s := by
  have hsplit : segmentBytes s ++ rest =
      wordBytes s.position ++ (wordBytes s.velocity ++ (wordBytes s.acceleration ++ rest)) := by
    simp [segmentBytes, segmentFields]
  have hfirst : (segmentBytes s ++ rest).drop 8 =
      wordBytes s.velocity ++ (wordBytes s.acceleration ++ rest) := by
    rw [hsplit, List.drop_left' (length_wordBytes _)]
  have hsecond : (segmentBytes s ++ rest).drop 16 = wordBytes s.acceleration ++ rest := by
    rw [← List.drop_drop (i := 8) (j := 8), hfirst, List.drop_left' (length_wordBytes _)]
  rw [segmentOfBytes, hfirst, hsecond, hsplit, List.take_left' (length_wordBytes _),
    List.take_left' (length_wordBytes _), List.take_left' (length_wordBytes _)]
  simp

theorem segmentBytes_segmentOfBytes {bytes : List UInt8} (h : 24 ≤ bytes.length) :
    segmentBytes (segmentOfBytes bytes) = bytes.take 24 := by
  have hfirst : (bytes.take 8).length = 8 := by
    rw [List.length_take]
    omega
  have hlater : ∀ n, n + 8 ≤ 24 → ((bytes.drop n).take 8).length = 8 := by
    intro n hn
    rw [List.length_take, List.length_drop]
    omega
  have hsplit : bytes.take 24 =
      bytes.take 8 ++ ((bytes.drop 8).take 8 ++ (bytes.drop 16).take 8) := by
    rw [← List.append_assoc, ← List.take_add, ← List.take_add]
  rw [hsplit, segmentBytes, segmentOfBytes]
  simp [segmentFields, wordBytes_wordOfBytes hfirst, wordBytes_wordOfBytes (hlater 8 (by decide)),
    wordBytes_wordOfBytes (hlater 16 (by decide))]

def segmentsOfBytes : (count : Nat) → List UInt8 → List (Segment Binary64)
  | 0, _ => []
  | count + 1, bytes => segmentOfBytes bytes :: segmentsOfBytes count (bytes.drop 24)

@[simp] theorem length_segmentsOfBytes (count : Nat) (bytes : List UInt8) :
    (segmentsOfBytes count bytes).length = count := by
  induction count generalizing bytes with
  | zero => rfl
  | succ count ih => simp [segmentsOfBytes, ih]

theorem segmentsOfBytes_append (segments : List (Segment Binary64)) (rest : List UInt8) :
    segmentsOfBytes segments.length (segments.flatMap segmentBytes ++ rest) = segments := by
  induction segments with
  | nil => rfl
  | cons s segments ih =>
    rw [List.flatMap_cons, List.append_assoc, List.length_cons, segmentsOfBytes,
      segmentOfBytes_append, List.drop_left' (length_segmentBytes s), ih]

theorem flatMap_segmentsOfBytes {count : Nat} {bytes : List UInt8}
    (h : 24 * count ≤ bytes.length) :
    (segmentsOfBytes count bytes).flatMap segmentBytes = bytes.take (24 * count) := by
  induction count generalizing bytes with
  | zero => simp [segmentsOfBytes]
  | succ count ih =>
    have hrest : 24 * count ≤ (bytes.drop 24).length := by
      rw [List.length_drop]
      omega
    rw [segmentsOfBytes, List.flatMap_cons, ih hrest, segmentBytes_segmentOfBytes (by omega),
      ← List.take_add]
    congr 1
    omega

theorem encoding_eq (segments : List (Segment Binary64)) :
    encoding segments = littleEndian 4 segments.length ++ segments.flatMap segmentBytes := by
  rw [encoding, sideFields, List.flatten_cons]
  congr 1
  induction segments with
  | nil => rfl
  | cons s segments ih => rw [List.flatMap_cons, List.flatten_append, ih]; rfl

theorem length_encoding (segments : List (Segment Binary64)) :
    (encoding segments).length = 4 + 24 * segments.length := by
  rw [encoding_eq, List.length_append, length_littleEndian]
  induction segments with
  | nil => rfl
  | cons s segments ih =>
    rw [List.flatMap_cons, List.length_append, length_segmentBytes, List.length_cons]
    omega

/-- The number of samples that the first four bytes announce. -/
def announced (bytes : List UInt8) : Nat := ofLittleEndian (bytes.take 4)

theorem announced_lt (bytes : List UInt8) : announced bytes < countLimit := by
  have hlt := ofLittleEndian_lt (bytes.take 4)
  have hle : (bytes.take 4).length ≤ 4 := List.length_take_le 4 bytes
  exact Nat.lt_of_lt_of_le hlt (Nat.pow_le_pow_right (by decide) hle)

theorem announced_encoding {segments : List (Segment Binary64)}
    (h : segments.length < countLimit) (rest : List UInt8) :
    announced (encoding segments ++ rest) = segments.length := by
  rw [announced, encoding_eq, List.append_assoc, List.take_left' (length_littleEndian 4 _)]
  exact ofLittleEndian_littleEndian h

theorem segmentsOfBytes_encoding (segments : List (Segment Binary64)) (rest : List UInt8) :
    segmentsOfBytes segments.length ((encoding segments ++ rest).drop 4) = segments := by
  rw [encoding_eq, List.append_assoc, List.drop_left' (length_littleEndian 4 _)]
  exact segmentsOfBytes_append segments rest

/-- Bytes that hold all they announce are the encoding of the segments in them. -/
theorem encoding_segmentsOfBytes {bytes : List UInt8}
    (h : 4 + 24 * announced bytes ≤ bytes.length) :
    encoding (segmentsOfBytes (announced bytes) (bytes.drop 4)) =
      bytes.take (4 + 24 * announced bytes) := by
  have hcount : (bytes.take 4).length = 4 := by
    rw [List.length_take]
    omega
  have hword := littleEndian_ofLittleEndian (bytes.take 4)
  rw [hcount] at hword
  have hbody : 24 * announced bytes ≤ (bytes.drop 4).length := by
    rw [List.length_drop]
    omega
  rw [encoding_eq, length_segmentsOfBytes, flatMap_segmentsOfBytes hbody, List.take_add]
  exact congrArg (· ++ _) hword

end SkidSteer.Storage
