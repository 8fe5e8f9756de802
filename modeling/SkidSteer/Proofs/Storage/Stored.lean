import SkidSteer.Proofs.Storage.Decoding

namespace SkidSteer.Storage

theorem complete_encoding {path : Path} (h : path.size < countLimit) (side : Side)
    (extra : List UInt8) : Complete path.size (encoding (path.side side) ++ extra) := by
  have hcount : (path.side side).length < countLimit := by
    rw [path.length_side]
    exact h
  constructor
  · rw [announced_encoding hcount, path.length_side]
  · rw [List.length_append, length_encoding_side]
    omega

theorem decodes_encodings {path : Path} (h : path.size < countLimit)
    (extraLeft extraRight : List UInt8) :
    DecodesTo (encoding (path.side .left) ++ extraLeft) (encoding (path.side .right) ++ extraRight)
      (.ok path) (4 + 24 * path.size) (4 + 24 * path.size) := by
  obtain ⟨hnl, hleft⟩ := complete_encoding h .left extraLeft
  obtain ⟨hnr, hright⟩ := complete_encoding h .right extraRight
  obtain ⟨path', hpath, hl, hr⟩ := decodes_path hleft hright hnl hnr
  have hside : ∀ side extra, segmentsOfBytes path.size
      ((encoding (path.side side) ++ extra).drop 4) = path.side side := by
    intro side extra
    have hsegments := segmentsOfBytes_encoding (path.side side) extra
    rw [path.length_side] at hsegments
    exact hsegments
  have hsame : path' = path := by
    apply Option.some.inj
    rw [← path'.ofSides?_side, ← path.ofSides?_side, hl, hr, hside, hside]
  exact hsame ▸ hpath

theorem decode_undoes_encode (path : Path) :
    (path.size < countLimit → ∀ left right : Sink,
      left.Holds (4 + 24 * path.size) → left.flush = .ok () →
      right.Holds (4 + 24 * path.size) → right.flush = .ok () →
      ∃ (l r : Sink) (lb rb : List UInt8), encode path left right = (.ok (), l, r) ∧
        l.accepted = left.accepted ++ lb ∧ r.accepted = right.accepted ++ rb ∧
        ∀ (extraLeft extraRight : List UInt8) (s t : Source),
          s.rest = lb ++ extraLeft → t.rest = rb ++ extraRight →
          ∃ s' t', decode s t = (.ok path, s', t') ∧
            s'.rest = extraLeft ∧ s'.taken = s.taken + (4 + 24 * path.size) ∧
            t'.rest = extraRight ∧ t'.taken = t.taken + (4 + 24 * path.size)) ∧
    (countLimit ≤ path.size → ∀ left right : Sink,
      encode path left right = (.error (.tooLong path.size), left, right)) := by
  constructor
  · intro h left right hleft hl hright hr
    obtain ⟨l, r, hencode, hal, har⟩ := encode_of_holds h hleft hl hright hr
    refine ⟨l, r, _, _, hencode, hal, har, ?_⟩
    intro extraLeft extraRight s t hs ht
    obtain ⟨s', t', hdecode, hps, hpt⟩ := decodes_encodings h extraLeft extraRight s t hs ht
    refine ⟨s', t', hdecode, ?_, ?_, ?_, ?_⟩
    · rw [hps.rest, hs, List.drop_left' (length_encoding_side path .left)]
    · apply hps.taken_of_le
      rw [hs, List.length_append, length_encoding_side]
      omega
    · rw [hpt.rest, ht, List.drop_left' (length_encoding_side path .right)]
    · apply hpt.taken_of_le
      rw [ht, List.length_append, length_encoding_side]
      omega
  · intro h left right
    have hside : countLimit ≤ (path.side .left).length := by
      rw [path.length_side]
      exact h
    rw [encode, writeSide_tooLong hside, path.length_side]

/-- A side that was not written whole does not hold the samples it announces. -/
theorem not_complete_of_front {path : Path} (h : path.size < countLimit) {side : Side}
    {bytes : List UInt8} (hfront : bytes <+: encoding (path.side side))
    (hpart : bytes ≠ encoding (path.side side)) : ∀ n, ¬ Complete n bytes := by
  rintro n ⟨hn, hlength⟩
  obtain ⟨lost, hlost⟩ := hfront
  have hsize : n = path.size := by
    have hannounced := (complete_encoding h side []).1
    rw [List.append_nil, ← hlost, announced, List.take_append_of_le_length (by omega)] at hannounced
    exact hn.symm.trans hannounced
  have hwhole : (bytes ++ lost).length = 4 + 24 * path.size := by
    rw [hlost, length_encoding_side]
  rw [List.length_append] at hwhole
  have hnil : lost = [] := by
    apply List.eq_nil_of_length_eq_zero
    omega
  rw [hnil, List.append_nil] at hlost
  exact hpart hlost

theorem not_complete_nil (n : Nat) : ¬ Complete n [] := by
  rintro ⟨-, hlength⟩
  rw [List.length_nil] at hlength
  omega

theorem failed_store_is_corrupt (path : Path) (left right : Sink) :
    ∃ (result : Except StoreError Unit) (l r : Sink) (lb rb : List UInt8),
      encode path left right = (result, l, r) ∧
      l.accepted = left.accepted ++ lb ∧ r.accepted = right.accepted ++ rb ∧
      lb <+: encoding (path.side .left) ∧ rb <+: encoding (path.side .right) ∧
      (¬ (lb = encoding (path.side .left) ∧ left.flush = .ok ()) → r = right) ∧
      (result = .ok () ↔
        lb = encoding (path.side .left) ∧ left.flush = .ok () ∧
          rb = encoding (path.side .right) ∧ right.flush = .ok ()) ∧
      (¬ (lb = encoding (path.side .left) ∧ left.flush = .ok () ∧
          rb = encoding (path.side .right)) →
        ∀ s t : Source, s.rest = lb → t.rest = rb → s.failure = none → t.failure = none →
          ∃ fault, (decode s t).1 = .error fault ∧ fault.isCorrupt = true) := by
  obtain ⟨result, l, r, lb, rb, hencode, hl, hcases⟩ := encode_written path left right
  refine ⟨result, l, r, lb, rb, hencode, hl.accepted, ?_⟩
  rcases hcases with ⟨hwhole, hflush, hr, hresult⟩ | ⟨hnot, hfails, rfl, rfl⟩
  · have hfew : path.size < countLimit := path.length_side .left ▸ hl.few hwhole
    refine ⟨hr.accepted, hl.front, hr.front, fun hnot => absurd ⟨hwhole, hflush⟩ hnot, ?_, ?_⟩
    · simp [hresult, hwhole, hflush]
    · intro hpart s t hs ht hends hendt
      have hshort : rb ≠ encoding (path.side .right) := by
        intro hall
        exact hpart ⟨hwhole, hflush, hall⟩
      apply corrupt_of_not_complete _ hs ht hends hendt
      rintro ⟨n, -, hn⟩
      exact not_complete_of_front hfew hr.front hshort n hn
  · refine ⟨by simp, hl.front, List.nil_prefix, fun _ => rfl, ?_, ?_⟩
    · exact iff_of_false hfails fun hall => hnot ⟨hall.1, hall.2.1⟩
    · intro _ s t hs ht hends hendt
      apply corrupt_of_not_complete _ hs ht hends hendt
      rintro ⟨n, -, hn⟩
      exact not_complete_nil n hn

end SkidSteer.Storage
