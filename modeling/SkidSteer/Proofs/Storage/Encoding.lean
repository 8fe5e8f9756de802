import SkidSteer.Proofs.Storage.Streams
import SkidSteer.Proofs.Storage.Words

namespace SkidSteer.Storage

theorem writeSide_of_holds {segments : List (Segment Binary64)} {s : Sink}
    (h : segments.length < countLimit) (hroom : s.Holds (encoding segments).length)
    (hflush : s.flush = .ok ()) :
    ∃ t, writeSide segments s = (.ok (), t) ∧ t.accepted = s.accepted ++ encoding segments := by
  have hfew : ¬ countLimit ≤ segments.length := by omega
  have hwrite : s.writeAll (sideFields segments) = s.write (encoding segments) :=
    s.writeAll_eq (sideFields segments)
  obtain ⟨t, ht, haccepted, hsame⟩ := Sink.write_of_holds hroom
  refine ⟨t, ?_, haccepted⟩
  simp [writeSide, hfew, hwrite, ht, hsame, hflush]

theorem writeSide_tooLong {segments : List (Segment Binary64)} (h : countLimit ≤ segments.length)
    (s : Sink) : writeSide segments s = (.error (.tooLong segments.length), s) := by
  simp [writeSide, h]

/-- An attempt to write a side has left these bytes on a sink. -/
structure Written (segments : List (Segment Binary64)) (s t : Sink) (bytes : List UInt8) :
    Prop where
  accepted : t.accepted = s.accepted ++ bytes
  front : bytes <+: encoding segments
  few : bytes = encoding segments → segments.length < countLimit

theorem writeSide_written (segments : List (Segment Binary64)) (s : Sink) :
    ∃ result t bytes, writeSide segments s = (result, t) ∧ Written segments s t bytes ∧
      (result = .ok () ↔ bytes = encoding segments ∧ s.flush = .ok ()) := by
  by_cases h : segments.length < countLimit
  · have hfew : ¬ countLimit ≤ segments.length := by omega
    have hwrite : s.writeAll (sideFields segments) = s.write (encoding segments) :=
      s.writeAll_eq (sideFields segments)
    by_cases hroom : s.Holds (encoding segments).length
    · obtain ⟨t, ht, haccepted, hsame⟩ := Sink.write_of_holds hroom
      have hwritten : Written segments s t (encoding segments) :=
        ⟨haccepted, List.prefix_refl _, fun _ => h⟩
      rcases hflush : s.flush with e | ⟨⟩
      · refine ⟨.error (.ioFailed e), t, _, ?_, hwritten, by simp⟩
        simp [writeSide, hfew, hwrite, ht, hsame, hflush]
      · refine ⟨.ok (), t, _, ?_, hwritten, by simp⟩
        simp [writeSide, hfew, hwrite, ht, hsame, hflush]
    · obtain ⟨t, room, ht, hshort, haccepted, -⟩ := Sink.write_of_not_holds hroom
      have hpart : (encoding segments).take room ≠ encoding segments := by
        intro hsame
        have hlength := congrArg List.length hsame
        rw [List.length_take] at hlength
        omega
      refine ⟨.error (.ioFailed s.fullError), t, (encoding segments).take room, ?_, ?_, ?_⟩
      · simp [writeSide, hfew, hwrite, ht]
      · exact ⟨haccepted, List.take_prefix _ _, fun _ => h⟩
      · simp [hpart]
  · have hpart : [] ≠ encoding segments := by
      intro hsame
      have hlength := congrArg List.length hsame
      rw [length_encoding, List.length_nil] at hlength
      omega
    refine ⟨_, s, [], writeSide_tooLong (by omega) s, ?_, by simp [hpart]⟩
    exact ⟨by simp, List.nil_prefix, fun hsame => absurd hsame hpart⟩

/-- The right side is begun only once the left one is written. -/
theorem encode_written (path : Path) (left right : Sink) :
    ∃ result l r lb rb, encode path left right = (result, l, r) ∧
      Written (path.side .left) left l lb ∧
      (lb = encoding (path.side .left) ∧ left.flush = .ok () ∧
          Written (path.side .right) right r rb ∧
          (result = .ok () ↔ rb = encoding (path.side .right) ∧ right.flush = .ok ()) ∨
        ¬ (lb = encoding (path.side .left) ∧ left.flush = .ok ()) ∧ result ≠ .ok () ∧ r = right ∧
          rb = []) := by
  obtain ⟨result, l, lb, hleft, hl, hresult⟩ := writeSide_written (path.side .left) left
  rcases result with e | ⟨⟩
  · refine ⟨.error e, l, right, lb, [], by simp [encode, hleft], hl, Or.inr ⟨?_, by simp, rfl, rfl⟩⟩
    intro hwhole
    cases hresult.mpr hwhole
  · obtain ⟨result', r, rb, hright, hr, hresult'⟩ := writeSide_written (path.side .right) right
    obtain ⟨hwhole, hflush⟩ := hresult.mp rfl
    refine ⟨result', l, r, lb, rb, by simp [encode, hleft, hright], hl, Or.inl ?_⟩
    exact ⟨hwhole, hflush, hr, hresult'⟩

theorem length_encoding_side (path : Path) (side : Side) :
    (encoding (path.side side)).length = 4 + 24 * path.size := by
  rw [length_encoding, path.length_side]

theorem encode_of_holds {path : Path} (h : path.size < countLimit) {left right : Sink}
    (hleft : left.Holds (4 + 24 * path.size)) (hl : left.flush = .ok ())
    (hright : right.Holds (4 + 24 * path.size)) (hr : right.flush = .ok ()) :
    ∃ l r, encode path left right = (.ok (), l, r) ∧
      l.accepted = left.accepted ++ encoding (path.side .left) ∧
      r.accepted = right.accepted ++ encoding (path.side .right) := by
  have hfew : ∀ side, (path.side side).length < countLimit := by
    intro side
    rw [path.length_side]
    exact h
  obtain ⟨l, hwritel, hal⟩ :=
    writeSide_of_holds (hfew .left) (length_encoding_side path .left ▸ hleft) hl
  obtain ⟨r, hwriter, har⟩ :=
    writeSide_of_holds (hfew .right) (length_encoding_side path .right ▸ hright) hr
  exact ⟨l, r, by simp [encode, hwritel, hwriter], hal, har⟩

end SkidSteer.Storage
