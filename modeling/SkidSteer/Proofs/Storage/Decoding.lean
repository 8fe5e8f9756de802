import SkidSteer.Proofs.Storage.Encoding

namespace SkidSteer.Storage

/-- How a fault for want of bytes is reported. Where the stream has failed, and not as one that
ends, the failure is reported instead. -/
def Source.report (s : Source) (fault : StoreError) : StoreError :=
  match s.failure with
  | none => fault
  | some e => if e.kind = .unexpectedEnd then fault else .ioFailed e

theorem faultOf_shortage (s : Source) (fault : StoreError) :
    faultOf fault s.shortage = s.report fault := by
  rcases hfailure : s.failure with _ | e
  · simp [Source.report, Source.shortage, hfailure, faultOf, Source.endOfStream]
  · simp [Source.report, Source.shortage, hfailure, faultOf]

theorem Past.shortage {n : Nat} {s t : Source} (h : Past n s t) : t.shortage = s.shortage := by
  rw [Source.shortage, h.failure, Source.shortage]

theorem Past.report {n : Nat} {s t : Source} (h : Past n s t) : t.report = s.report := by
  funext fault
  rw [← faultOf_shortage, ← faultOf_shortage, h.shortage]

theorem readCount_past (side : Side) (s : Source) :
    ∃ t, Past 4 s t ∧
      readCount side s = (if 4 ≤ s.rest.length then .ok (announced s.rest)
        else .error (s.report (.missingCount side)), t) := by
  obtain ⟨t, ht, hread⟩ := read_past s 4
  refine ⟨t, ht, ?_⟩
  by_cases h : 4 ≤ s.rest.length
  · simp [readCount, hread, h, announced]
  · simp [readCount, hread, h, faultOf_shortage]

theorem readSegment_past (s : Source) :
    ∃ t, Past 24 s t ∧
      readSegment s = (if 24 ≤ s.rest.length then .ok (segmentOfBytes s.rest)
        else .error s.shortage, t) := by
  obtain ⟨t, ht, hfirst⟩ := read_past s 8
  obtain ⟨u, hu, hsecond⟩ := read_past t 8
  obtain ⟨v, hv, hthird⟩ := read_past u 8
  have htu := ht.trans hu
  have hlt := ht.length_rest
  have hlu := htu.length_rest
  -- where a read falls short, the source has given all it had
  by_cases h8 : 8 ≤ s.rest.length
  · rw [if_pos h8] at hfirst
    by_cases h16 : 8 ≤ t.rest.length
    · rw [if_pos h16, ht.rest] at hsecond
      refine ⟨v, htu.trans hv, ?_⟩
      by_cases h24 : 8 ≤ u.rest.length
      · rw [if_pos h24, htu.rest] at hthird
        have hall : 24 ≤ s.rest.length := by omega
        simp [readSegment, hfirst, hsecond, hthird, hall, segmentOfBytes]
      · rw [if_neg h24, htu.shortage] at hthird
        have hall : ¬ 24 ≤ s.rest.length := by omega
        simp [readSegment, hfirst, hsecond, hthird, hall]
    · rw [if_neg h16, ht.shortage] at hsecond
      have hall : ¬ 24 ≤ s.rest.length := by omega
      refine ⟨u, htu.spent (by omega) (by omega), ?_⟩
      simp [readSegment, hfirst, hsecond, hall]
  · rw [if_neg h8] at hfirst
    have hall : ¬ 24 ≤ s.rest.length := by omega
    refine ⟨t, ht.spent (by omega) (by omega), ?_⟩
    simp [readSegment, hfirst, hall]

theorem readSegments_past (side : Side) (expected more : Nat) (done : Array (Segment Binary64))
    (s : Source) :
    ∃ t, Past (24 * more) s t ∧
      readSegments side expected more done s =
        (if 24 * more ≤ s.rest.length then .ok (done ++ segmentsOfBytes more s.rest)
          else .error (s.report
            (.truncated side (done.size + s.rest.length / 24) expected)), t) := by
  -- the samples done and those that the rest still holds keep their sum from turn to turn
  induction more generalizing done s with
  | zero => exact ⟨s, Past.refl s, by simp [readSegments, segmentsOfBytes]⟩
  | succ more ih =>
    obtain ⟨t, ht, hsegment⟩ := readSegment_past s
    have hlength := ht.length_rest
    by_cases h : 24 ≤ s.rest.length
    · obtain ⟨u, hu, hmore⟩ := ih (done.push (segmentOfBytes s.rest)) t
      have hsum : 24 + 24 * more = 24 * (more + 1) := by omega
      refine ⟨u, hsum ▸ ht.trans hu, ?_⟩
      have hcount : (done.push (segmentOfBytes s.rest)).size + t.rest.length / 24 =
          done.size + s.rest.length / 24 := by
        rw [Array.size_push]
        omega
      have henough : 24 * more ≤ t.rest.length ↔ 24 * (more + 1) ≤ s.rest.length := by omega
      have hdone : done.push (segmentOfBytes s.rest) ++ segmentsOfBytes more t.rest =
          done ++ segmentsOfBytes (more + 1) s.rest := by
        apply Array.toList_inj.mp
        simp [segmentsOfBytes, ht.rest]
      simp only [readSegments, hsegment, h, if_true, hmore, hcount, henough, ht.report, hdone]
    · have hnone : s.rest.length / 24 = 0 := by omega
      have hall : ¬ 24 * (more + 1) ≤ s.rest.length := by omega
      refine ⟨t, ht.spent (by omega) (by omega), ?_⟩
      simp [readSegments, hsegment, h, hall, hnone, faultOf_shortage]

theorem readSide_past (side : Side) (count : Nat) (s : Source) :
    ∃ t, Past (24 * count) s t ∧
      readSide side count s =
        (if 24 * count ≤ s.rest.length then .ok (segmentsOfBytes count s.rest).toArray
          else .error (s.report (.truncated side (s.rest.length / 24) count)), t) := by
  obtain ⟨t, ht, hread⟩ := readSegments_past side count count #[] s
  exact ⟨t, ht, by simpa [readSide] using hread⟩

theorem readSide_after_count (side : Side) (n : Nat) {s t : Source} (h : 4 ≤ s.rest.length)
    (ht : Past 4 s t) :
    ∃ u, Past (4 + 24 * n) s u ∧
      readSide side n t =
        (if 4 + 24 * n ≤ s.rest.length then .ok (segmentsOfBytes n (s.rest.drop 4)).toArray
          else .error (s.report (.truncated side ((s.rest.length - 4) / 24) n)), u) := by
  obtain ⟨u, hu, hside⟩ := readSide_past side n t
  have henough : 24 * n ≤ s.rest.length - 4 ↔ 4 + 24 * n ≤ s.rest.length := by omega
  rw [ht.length_rest, ht.rest, ht.report] at hside
  refine ⟨u, ht.trans hu, ?_⟩
  simp only [hside, henough]

/-- A fault as it is reported of two streams: through the one that it is about. -/
def reported (left right : Source) (fault : StoreError) : StoreError :=
  match fault with
  | .missingCount .left | .truncated .left .. => left.report fault
  | .missingCount .right | .truncated .right .. => right.report fault
  | _ => fault

/-- What two byte strings are decoded to, and how much is asked of either, however they are
delivered and whatever becomes of the streams after them. -/
def DecodesTo (left right : List UInt8) (outcome : Except StoreError Path)
    (fromLeft fromRight : Nat) : Prop :=
  ∀ l r : Source, l.rest = left → r.rest = right → ∃ l' r',
    decode l r = (outcome.mapError (reported l r), l', r') ∧
      Past fromLeft l l' ∧ Past fromRight r r'

@[simp] theorem mapError_error {α β γ : Type} (f : α → β) (e : α) :
    (Except.error e : Except α γ).mapError f = .error (f e) := rfl

@[simp] theorem mapError_ok {α β γ : Type} (f : α → β) (c : γ) :
    (Except.ok c : Except α γ).mapError f = .ok c := rfl

section Faults

variable {left right : List UInt8}

theorem decodes_no_left_count (h : left.length < 4) :
    DecodesTo left right (.error (.missingCount .left)) 4 0 := by
  rintro l r rfl rfl
  obtain ⟨l', hl, hcount⟩ := readCount_past .left l
  rw [if_neg (by omega)] at hcount
  exact ⟨l', r, by simp [decode, hcount, reported], hl, Past.refl r⟩

theorem decodes_no_right_count (hleft : 4 ≤ left.length) (h : right.length < 4) :
    DecodesTo left right (.error (.missingCount .right)) 4 4 := by
  rintro l r rfl rfl
  obtain ⟨l', hl, hcountl⟩ := readCount_past .left l
  obtain ⟨r', hr, hcountr⟩ := readCount_past .right r
  rw [if_pos hleft] at hcountl
  rw [if_neg (by omega)] at hcountr
  exact ⟨l', r', by simp [decode, hcountl, hcountr, reported], hl, hr⟩

theorem counts_past (l r : Source) (hleft : 4 ≤ l.rest.length) (hright : 4 ≤ r.rest.length) :
    ∃ l' r', Past 4 l l' ∧ Past 4 r r' ∧
      readCount .left l = (.ok (announced l.rest), l') ∧
      readCount .right r = (.ok (announced r.rest), r') := by
  obtain ⟨l', hl, hcountl⟩ := readCount_past .left l
  obtain ⟨r', hr, hcountr⟩ := readCount_past .right r
  rw [if_pos hleft] at hcountl
  rw [if_pos hright] at hcountr
  exact ⟨l', r', hl, hr, hcountl, hcountr⟩

theorem decodes_mismatch (hleft : 4 ≤ left.length) (hright : 4 ≤ right.length)
    (h : announced left ≠ announced right) :
    DecodesTo left right (.error (.lengthMismatch (announced left) (announced right))) 4 4 := by
  rintro l r rfl rfl
  obtain ⟨l', r', hl, hr, hcountl, hcountr⟩ := counts_past l r hleft hright
  exact ⟨l', r', by simp [decode, hcountl, hcountr, h, reported], hl, hr⟩

theorem decodes_short_left {n : Nat} (hleft : 4 ≤ left.length) (hright : 4 ≤ right.length)
    (hnl : announced left = n) (hnr : announced right = n) (h : left.length < 4 + 24 * n) :
    DecodesTo left right (.error (.truncated .left ((left.length - 4) / 24) n)) (4 + 24 * n) 4 := by
  rintro l r rfl rfl
  obtain ⟨l', r', hl, hr, hcountl, hcountr⟩ := counts_past l r hleft hright
  obtain ⟨l'', hl', hside⟩ := readSide_after_count .left n hleft hl
  rw [if_neg (by omega)] at hside
  exact ⟨l'', r', by simp [decode, hcountl, hcountr, hnl, hnr, hside, reported], hl', hr⟩

theorem decodes_short_right {n : Nat} (hleft : 4 + 24 * n ≤ left.length)
    (hright : 4 ≤ right.length) (hnl : announced left = n) (hnr : announced right = n)
    (h : right.length < 4 + 24 * n) :
    DecodesTo left right (.error (.truncated .right ((right.length - 4) / 24) n)) (4 + 24 * n)
      (4 + 24 * n) := by
  rintro l r rfl rfl
  obtain ⟨l', r', hl, hr, hcountl, hcountr⟩ := counts_past l r (by omega) hright
  obtain ⟨l'', hl', hsidel⟩ := readSide_after_count .left n (by omega) hl
  obtain ⟨r'', hr', hsider⟩ := readSide_after_count .right n hright hr
  rw [if_pos hleft] at hsidel
  rw [if_neg (by omega)] at hsider
  refine ⟨l'', r'', ?_, hl', hr'⟩
  simp [decode, hcountl, hcountr, hnl, hnr, hsidel, hsider, reported]

theorem decodes_path {n : Nat} (hleft : 4 + 24 * n ≤ left.length)
    (hright : 4 + 24 * n ≤ right.length) (hnl : announced left = n) (hnr : announced right = n) :
    ∃ path, DecodesTo left right (.ok path) (4 + 24 * n) (4 + 24 * n) ∧
      path.side .left = segmentsOfBytes n (left.drop 4) ∧
      path.side .right = segmentsOfBytes n (right.drop 4) := by
  have hlengths : (segmentsOfBytes n (left.drop 4)).length =
      (segmentsOfBytes n (right.drop 4)).length := by
    rw [length_segmentsOfBytes, length_segmentsOfBytes]
  obtain ⟨path, hpath, hsides⟩ := Trajectory.ofSides?_of_length_eq hlengths
  refine ⟨path, ?_, hsides⟩
  rintro l r rfl rfl
  obtain ⟨l', r', hl, hr, hcountl, hcountr⟩ := counts_past l r (by omega) (by omega)
  obtain ⟨l'', hl', hsidel⟩ := readSide_after_count .left n (by omega) hl
  obtain ⟨r'', hr', hsider⟩ := readSide_after_count .right n (by omega) hr
  rw [if_pos hleft] at hsidel
  rw [if_pos hright] at hsider
  refine ⟨l'', r'', ?_, hl', hr'⟩
  simp [decode, hcountl, hcountr, hnl, hnr, hsidel, hsider, hpath]

end Faults

/-- Whether the bytes announce `n` samples and hold them all. -/
def Complete (n : Nat) (bytes : List UInt8) : Prop :=
  announced bytes = n ∧ 4 + 24 * n ≤ bytes.length

/-- Without a path in them, two byte strings have a fault that is found. -/
theorem decodes_fault (left right : List UInt8)
    (h : ¬ ∃ n, Complete n left ∧ Complete n right) :
    ∃ fault fromLeft fromRight, fault.isCorrupt = true ∧
      DecodesTo left right (.error fault) fromLeft fromRight := by
  by_cases hleft : 4 ≤ left.length
  · by_cases hright : 4 ≤ right.length
    · by_cases hcounts : announced left = announced right
      · by_cases hwhole : 4 + 24 * announced left ≤ left.length
        · have hshort : right.length < 4 + 24 * announced left := by
            apply Nat.lt_of_not_le
            intro hlong
            exact h ⟨announced left, ⟨rfl, hwhole⟩, hcounts.symm, by omega⟩
          exact ⟨_, _, _, rfl, decodes_short_right hwhole hright rfl hcounts.symm hshort⟩
        · exact ⟨_, _, _, rfl, decodes_short_left hleft hright rfl hcounts.symm (by omega)⟩
      · exact ⟨_, _, _, rfl, decodes_mismatch hleft hright hcounts⟩
    · exact ⟨_, _, _, rfl, decodes_no_right_count hleft (by omega)⟩
  · exact ⟨_, _, _, rfl, decodes_no_left_count (by omega)⟩

/-- One outcome for all sources that hold the same bytes, but for how its fault is reported. -/
theorem decodes_one (left right : List UInt8) :
    ∃ outcome fromLeft fromRight, DecodesTo left right outcome fromLeft fromRight := by
  by_cases h : ∃ n, Complete n left ∧ Complete n right
  · obtain ⟨n, ⟨hnl, hleft⟩, hnr, hright⟩ := h
    obtain ⟨path, hpath, -⟩ := decodes_path hleft hright hnl hnr
    exact ⟨_, _, _, hpath⟩
  · obtain ⟨fault, a, b, -, hfault⟩ := decodes_fault left right h
    exact ⟨_, a, b, hfault⟩

theorem reported_of_ends {l r : Source} (hl : l.failure = none) (hr : r.failure = none)
    (fault : StoreError) : reported l r fault = fault := by
  rcases fault with _ | ⟨_ | _⟩ | ⟨_ | _⟩ | _ | _ | _ <;> simp [reported, Source.report, hl, hr]

theorem DecodesTo.of_ends {left right : List UInt8} {outcome : Except StoreError Path} {a b : Nat}
    (h : DecodesTo left right outcome a b) {l r : Source} (hleft : l.rest = left)
    (hright : r.rest = right) (hl : l.failure = none) (hr : r.failure = none) :
    (decode l r).1 = outcome := by
  obtain ⟨l', r', hdecode, -⟩ := h l r hleft hright
  rw [hdecode]
  rcases outcome with fault | path
  · exact congrArg Except.error (reported_of_ends hl hr fault)
  · rfl

theorem corrupt_of_not_complete {left right : List UInt8}
    (h : ¬ ∃ n, Complete n left ∧ Complete n right) {l r : Source} (hleft : l.rest = left)
    (hright : r.rest = right) (hl : l.failure = none) (hr : r.failure = none) :
    ∃ fault, (decode l r).1 = .error fault ∧ fault.isCorrupt = true := by
  obtain ⟨fault, a, b, hcorrupt, hfault⟩ := decodes_fault left right h
  exact ⟨fault, hfault.of_ends hleft hright hl hr, hcorrupt⟩

theorem decodes_iff {left right : List UInt8} {l r : Source} (hl : l.rest = left)
    (hr : r.rest = right) :
    (∃ path l' r', decode l r = (.ok path, l', r')) ↔ ∃ n, Complete n left ∧ Complete n right := by
  constructor
  · rintro ⟨path, l', r', hdecode⟩
    apply Classical.byContradiction
    intro h
    obtain ⟨fault, a, b, -, hfault⟩ := decodes_fault left right h
    obtain ⟨l'', r'', hdecode', -⟩ := hfault l r hl hr
    rw [hdecode] at hdecode'
    cases hdecode'
  · rintro ⟨n, ⟨hnl, hleft⟩, hnr, hright⟩
    obtain ⟨path, hpath, -⟩ := decodes_path hleft hright hnl hnr
    obtain ⟨l', r', hdecode, -⟩ := hpath l r hl hr
    exact ⟨path, l', r', hdecode⟩

/-- What is decoded is encoded as the bytes that it was decoded from. -/
theorem encode_decoded {left right : List UInt8} {n : Nat} {path : Path}
    (hleft : Complete n left) (hright : Complete n right)
    (hl : path.side .left = segmentsOfBytes n (left.drop 4))
    (hr : path.side .right = segmentsOfBytes n (right.drop 4)) :
    ∃ l r, encode path .unlimited .unlimited = (.ok (), l, r) ∧
      l.accepted.toList = left.take (4 + 24 * n) ∧
      r.accepted.toList = right.take (4 + 24 * n) := by
  obtain ⟨rfl, hwhole⟩ := hleft
  obtain ⟨hsame, hwhole'⟩ := hright
  have hsize : path.size = announced left := by
    rw [← path.length_side .left, hl, length_segmentsOfBytes]
  have hunlimited : Sink.unlimited.Holds (4 + 24 * path.size) := by
    intro room hroom
    cases hroom
  obtain ⟨l, r, hencode, hal, har⟩ :=
    encode_of_holds (hsize ▸ announced_lt left) hunlimited rfl hunlimited rfl
  have hencl : encoding (path.side .left) = left.take (4 + 24 * announced left) := by
    rw [hl, encoding_segmentsOfBytes hwhole]
  have hencr : encoding (path.side .right) = right.take (4 + 24 * announced left) := by
    rw [hr, ← hsame, encoding_segmentsOfBytes (by omega)]
  refine ⟨l, r, hencode, ?_, ?_⟩
  · rw [hal, hencl]
    simp [Sink.unlimited]
  · rw [har, hencr]
    simp [Sink.unlimited]

theorem decode_accepts_only_encodings (left right : List UInt8) :
    (∀ n, announced left = n → announced right = n → 4 + 24 * n ≤ left.length →
      4 + 24 * n ≤ right.length →
      ∃ path l r, DecodesTo left right (.ok path) (4 + 24 * n) (4 + 24 * n) ∧
        encode path .unlimited .unlimited = (.ok (), l, r) ∧
        l.accepted.toList = left.take (4 + 24 * n) ∧
        r.accepted.toList = right.take (4 + 24 * n)) ∧
    (left.length < 4 → DecodesTo left right (.error (.missingCount .left)) 4 0) ∧
    (4 ≤ left.length → right.length < 4 →
      DecodesTo left right (.error (.missingCount .right)) 4 4) ∧
    (4 ≤ left.length → 4 ≤ right.length → announced left ≠ announced right →
      DecodesTo left right (.error (.lengthMismatch (announced left) (announced right))) 4 4) ∧
    (∀ n, 4 ≤ left.length → 4 ≤ right.length → announced left = n → announced right = n →
      left.length < 4 + 24 * n →
      DecodesTo left right (.error (.truncated .left ((left.length - 4) / 24) n))
        (4 + 24 * n) 4) ∧
    (∀ n, 4 + 24 * n ≤ left.length → 4 ≤ right.length → announced left = n →
      announced right = n → right.length < 4 + 24 * n →
      DecodesTo left right (.error (.truncated .right ((right.length - 4) / 24) n))
        (4 + 24 * n) (4 + 24 * n)) ∧
    (∀ l r : Source, l.rest = left → r.rest = right →
      ((∃ path l' r', decode l r = (.ok path, l', r')) ↔
        4 ≤ left.length ∧ 4 ≤ right.length ∧ announced left = announced right ∧
          4 + 24 * announced left ≤ left.length ∧ 4 + 24 * announced left ≤ right.length) ∧
      (decode l r).1 =
        (decode (Source.ofBytes left) (Source.ofBytes right)).1.mapError (reported l r)) ∧
    ∀ fault l r, decode (Source.ofBytes left) (Source.ofBytes right) = (.error fault, l, r) →
      fault.isCorrupt = true := by
  refine ⟨?_, decodes_no_left_count, decodes_no_right_count, decodes_mismatch,
    fun n => decodes_short_left, fun n => decodes_short_right, ?_, ?_⟩
  · intro n hnl hnr hleft hright
    obtain ⟨path, hpath, hsidel, hsider⟩ := decodes_path hleft hright hnl hnr
    obtain ⟨l, r, hencode⟩ := encode_decoded ⟨hnl, hleft⟩ ⟨hnr, hright⟩ hsidel hsider
    exact ⟨path, l, r, hpath, hencode⟩
  · intro l r hl hr
    constructor
    · rw [decodes_iff hl hr]
      constructor
      · rintro ⟨n, ⟨rfl, hleft⟩, hnr, hright⟩
        exact ⟨by omega, by omega, hnr.symm, hleft, hright⟩
      · rintro ⟨-, -, hsame, hleft, hright⟩
        exact ⟨announced left, ⟨rfl, hleft⟩, hsame.symm, hright⟩
    · obtain ⟨outcome, a, b, houtcome⟩ := decodes_one left right
      obtain ⟨l', r', hdecode, -⟩ := houtcome l r hl hr
      have hbytes := houtcome.of_ends (l := .ofBytes left) (r := .ofBytes right) rfl rfl rfl rfl
      rw [hbytes, hdecode]
  · intro fault l r hdecode
    have hnone : ¬ ∃ n, Complete n left ∧ Complete n right := by
      intro hcomplete
      obtain ⟨path, l', r', hpath⟩ :=
        (decodes_iff (l := .ofBytes left) (r := .ofBytes right) rfl rfl).mpr hcomplete
      rw [hdecode] at hpath
      cases hpath
    obtain ⟨fault', hfault, hcorrupt⟩ := corrupt_of_not_complete hnone
      (l := .ofBytes left) (r := .ofBytes right) rfl rfl rfl rfl
    rw [hdecode] at hfault
    cases hfault
    exact hcorrupt

end SkidSteer.Storage
