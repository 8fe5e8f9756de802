import SkidSteer.Storage.Stream

namespace SkidSteer.Storage

/-- The source after a demand for `n` more bytes. It has given those it had. -/
structure Past (n : Nat) (s t : Source) : Prop where
  rest : t.rest = s.rest.drop n
  taken : t.taken = s.taken + min n s.rest.length
  failure : t.failure = s.failure

namespace Past

variable {s t u : Source} {n m : Nat}

theorem refl (s : Source) : Past 0 s s := ⟨rfl, by simp, rfl⟩

theorem trans (h : Past n s t) (g : Past m t u) : Past (n + m) s u := by
  have hlength : t.rest.length = s.rest.length - n := by rw [h.rest, List.length_drop]
  refine ⟨?_, ?_, g.failure.trans h.failure⟩
  · rw [g.rest, h.rest, List.drop_drop]
  · rw [g.taken, h.taken, hlength]
    omega

/-- Nothing more comes from a source that has given all it had. -/
theorem spent (h : Past n s t) (hn : s.rest.length ≤ n) (hm : s.rest.length ≤ m) :
    Past m s t := by
  refine ⟨?_, ?_, h.failure⟩
  · rw [h.rest, List.drop_eq_nil_of_le hn, List.drop_eq_nil_of_le hm]
  · rw [h.taken, Nat.min_eq_right hn, Nat.min_eq_right hm]

theorem length_rest (h : Past n s t) : t.rest.length = s.rest.length - n := by
  rw [h.rest, List.length_drop]

theorem taken_of_le (h : Past n s t) (hn : n ≤ s.rest.length) : t.taken = s.taken + n := by
  rw [h.taken, Nat.min_eq_left hn]

end Past

/-- What the source says when bytes are asked for that it does not have. -/
def Source.shortage (s : Source) : IoError := s.failure.getD Source.endOfStream

theorem read_past (s : Source) (n : Nat) :
    ∃ t, Past n s t ∧
      s.read n = (if n ≤ s.rest.length then .ok (s.rest.take n) else .error s.shortage, t) := by
  obtain ⟨hgot, hleft⟩ := Source.gather_bytes s.deliveries n s.rest
  rcases hg : Source.gather n s.rest s.deliveries with ⟨got, left, later⟩
  simp only [hg] at hgot hleft
  have hlength : got.length = min n s.rest.length := by rw [hgot, List.length_take]
  refine ⟨⟨left, later, s.failure, s.taken + got.length⟩, ⟨hleft, by rw [hlength], rfl⟩, ?_⟩
  by_cases hn : n ≤ s.rest.length
  · simp [Source.read, hg, hn, hgot]
  · have hsome : got.length ≠ n := by omega
    simp [Source.read, hg, hsome, hn, Source.shortage]

namespace Sink

/-- Whether the sink takes that many bytes more. -/
def Holds (s : Sink) (n : Nat) : Prop := ∀ room, s.room = some room → n ≤ room

theorem write_of_holds {s : Sink} {bytes : List UInt8} (h : s.Holds bytes.length) :
    ∃ t, s.write bytes = (.ok (), t) ∧ t.accepted = s.accepted ++ bytes ∧
      t.flush = s.flush := by
  rcases hroom : s.room with _ | room
  · exact ⟨{ s with accepted := s.accepted ++ bytes }, by simp [write, hroom], rfl, rfl⟩
  · have hle : bytes.length ≤ room := h room hroom
    exact ⟨{ s with accepted := s.accepted ++ bytes, room := some (room - bytes.length) },
      by simp [write, hroom, hle], rfl, rfl⟩

theorem write_of_not_holds {s : Sink} {bytes : List UInt8} (h : ¬ s.Holds bytes.length) :
    ∃ t room, s.write bytes = (.error s.fullError, t) ∧ room < bytes.length ∧
      t.accepted = s.accepted ++ bytes.take room ∧ t.flush = s.flush := by
  rcases hroom : s.room with _ | room
  · refine absurd ?_ h
    intro room hsome
    rw [hroom] at hsome
    cases hsome
  · have hlt : ¬ bytes.length ≤ room := by
      intro hle
      refine h fun room' hsome => ?_
      rw [hroom, Option.some.injEq] at hsome
      exact hsome ▸ hle
    exact ⟨{ s with accepted := s.accepted ++ bytes.take room, room := some 0 }, room,
      by simp [write, hroom, hlt], by omega, rfl, rfl⟩

theorem write_nil (s : Sink) : s.write [] = (.ok (), s) := by
  rcases s with ⟨accepted, _ | room, whenFull, failure⟩ <;> simp [write]

theorem accepted_append (accepted : Array UInt8) (front back : List UInt8) :
    accepted ++ (front ++ back) = accepted ++ front ++ back := by
  apply Array.toList_inj.mp
  simp

theorem write_append (s : Sink) (front back : List UInt8) :
    s.write (front ++ back) =
      match s.write front with
      | (.ok (), t) => t.write back
      | (.error e, t) => (.error e, t) := by
  rcases hroom : s.room with _ | room
  · simp [write, hroom, accepted_append]
  · by_cases hfront : front.length ≤ room
    · by_cases hback : back.length ≤ room - front.length
      · have hboth : front.length + back.length ≤ room := by omega
        simp [write, hroom, hfront, hback, hboth, accepted_append, Nat.sub_sub]
      · have hboth : ¬ front.length + back.length ≤ room := by omega
        have htake : front.take room = front := List.take_of_length_le hfront
        simp [write, hroom, hfront, hback, hboth, List.take_append, htake, accepted_append,
          fullError]
    · have hboth : ¬ front.length + back.length ≤ room := by omega
      have hnone : room - front.length = 0 := by omega
      simp [write, hroom, hfront, hboth, List.take_append, hnone]

/-- Field by field, a sink takes what it would take of all of them at once. -/
theorem writeAll_eq (s : Sink) (fields : List (List UInt8)) :
    s.writeAll fields = s.write fields.flatten := by
  induction fields generalizing s with
  | nil => exact (write_nil s).symm
  | cons field fields ih =>
    rw [writeAll, List.flatten_cons, write_append]
    rcases s.write field with ⟨e | ⟨⟩, t⟩
    · rfl
    · exact ih t

end Sink

end SkidSteer.Storage
