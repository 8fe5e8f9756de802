import SkidSteer.Pacing

namespace SkidSteer

theorem Tick.add?_eq_none_iff {t : Tick} {d : Duration} :
    t.add? d = none ↔ Tick.limit ≤ t.nanoseconds + d.nanoseconds := by
  rw [add?]
  split <;> simp <;> omega

namespace Rate

variable {clock : Nat → Tick} {period : Duration} {r : Rate} {rounds round : Nat}

theorem delay?_eq_none_iff {now : Tick} :
    r.delay? now period = none ↔
      Tick.limit ≤ (r.lastWake.getD now).nanoseconds + period.nanoseconds := by
  rw [delay?, Option.map_eq_none_iff, Tick.add?_eq_none_iff]

/-- A loop wakes when its round is due, or at once. -/
theorem lastWake_of_delay? {now : Tick} {s : Rate} (h : r.delay? now period = some s) :
    ∃ wake, s.lastWake = some wake ∧ (wake = now ∨
      wake.nanoseconds = (r.lastWake.getD now).nanoseconds + period.nanoseconds) := by
  obtain ⟨due, hdue, rfl⟩ := Option.map_eq_some_iff.1 h
  have hsum : due.nanoseconds = (r.lastWake.getD now).nanoseconds + period.nanoseconds := by
    rw [Tick.add?] at hdue
    split at hdue
    · cases hdue
      rfl
    · cases hdue
  split
  · exact ⟨now, rfl, Or.inl rfl⟩
  · exact ⟨due, rfl, Or.inr hsum⟩

theorem broken?_mem {broken : Nat} (h : broken? clock period rounds round r = some broken) :
    round ≤ broken ∧ broken < round + rounds := by
  induction rounds generalizing round r with
  | zero => cases h
  | succ rounds ih =>
    rw [broken?] at h
    split at h
    · cases h
      omega
    · have hlater := ih h
      omega

/-- A loop does not break off where the periods of all its rounds fit between the latest tick that
the clock shows and the end of the clock. -/
theorem broken?_eq_none (latest : Nat) (hclock : ∀ n, (clock n).nanoseconds ≤ latest)
    (hwake : ∀ wake, r.lastWake = some wake → wake.nanoseconds ≤ latest)
    (hlimit : latest + rounds * period.nanoseconds < Tick.limit) :
    broken? clock period rounds round r = none := by
  induction rounds generalizing round r latest with
  | zero => rfl
  | succ rounds ih =>
    have hlast : (r.lastWake.getD (clock round)).nanoseconds ≤ latest := by
      cases hr : r.lastWake with
      | none => exact hclock round
      | some wake => exact hwake wake hr
    rw [Nat.succ_mul] at hlimit
    cases hnext : r.delay? (clock round) period with
    | none =>
      have hend := delay?_eq_none_iff.1 hnext
      omega
    | some next =>
      simp only [broken?, hnext]
      obtain ⟨wake, hsome, hwakes⟩ := lastWake_of_delay? hnext
      refine ih (latest + period.nanoseconds)
        (fun n => Nat.le_add_right_of_le (hclock n)) ?_ (by omega)
      intro other ho
      obtain rfl := Option.some.inj (hsome.symm.trans ho)
      rcases hwakes with rfl | hsum
      · exact Nat.le_add_right_of_le (hclock round)
      · omega

/-- With a period as long as the clock goes, a loop breaks off after its first round. -/
theorem broken?_of_long (h : Tick.limit ≤ period.nanoseconds) (hrounds : 0 < rounds) :
    broken? clock period rounds round r = some round := by
  obtain ⟨rounds, rfl⟩ : ∃ n, rounds = n + 1 := ⟨rounds - 1, by omega⟩
  have hnone : r.delay? (clock round) period = none :=
    delay?_eq_none_iff.2 (Nat.le_add_left_of_le h)
  simp only [broken?, hnone]

end Rate

end SkidSteer
