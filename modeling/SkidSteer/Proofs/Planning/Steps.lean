import SkidSteer.Planning.Planner

namespace SkidSteer

namespace Planner

variable {α : Type} [Scalar α] {p : Planner α}

def sample (p : Planner α) (table : CurvatureTable α) (profile : VelocityProfile α) :
    Nat → Sample α
  | 0 => p.sampleAt table profile 0 none
  | index + 1 => p.sampleAt table profile (index + 1) (some (p.sample table profile index))

def previous? (p : Planner α) (table : CurvatureTable α) (profile : VelocityProfile α) :
    Nat → Option (Sample α)
  | 0 => none
  | index + 1 => some (p.sample table profile index)

theorem samplesFrom_eq (table : CurvatureTable α) (profile : VelocityProfile α)
    (more index : Nat) (done : Array (Sample α)) :
    p.samplesFrom table profile more index (p.previous? table profile index) done =
      done ++ ((List.range' index more).map (p.sample table profile)).toArray := by
  induction more generalizing index done with
  | zero => simp [samplesFrom]
  | succ more ih =>
    have hsample : p.sampleAt table profile index (p.previous? table profile index) =
        p.sample table profile index := by
      cases index <;> rfl
    have hprevious : some (p.sample table profile index) =
        p.previous? table profile (index + 1) := rfl
    rw [samplesFrom, hsample, hprevious, ih, List.range'_succ]
    simp

theorem size_samplesFrom (table : CurvatureTable α) (profile : VelocityProfile α)
    (more index : Nat) (previous : Option (Sample α)) (done : Array (Sample α)) :
    (p.samplesFrom table profile more index previous done).size = done.size + more := by
  induction more generalizing index previous done with
  | zero => rfl
  | succ more ih =>
    rw [samplesFrom, ih, Array.size_push]
    omega

variable {table : CurvatureTable α} {profile : VelocityProfile α} {t : Trajectory α}

/-- A profile is followed by as many samples as it takes, if those are not too many, and finite. -/
theorem follow_eq_ok_iff : p.follow table profile = .ok t ↔
    Scalar.isFinite (p.sampleCount profile) = true ∧
      ¬Scalar.ofCount mostSamples < p.sampleCount profile ∧
      t.samples.all (Sample.all Scalar.isFinite) = true ∧
      t.samples =
        p.samplesFrom table profile (Scalar.toCount (p.sampleCount profile)) 0 none #[] := by
  constructor
  · intro h
    unfold follow at h
    simp only at h
    split at h
    · cases h
    · rename_i hcount
      split at h
      · rename_i hall
        cases h
        simp only [Bool.or_eq_true, Bool.not_eq_true', decide_eq_true_eq, not_or,
          Bool.not_eq_false] at hcount
        exact ⟨hcount.1, hcount.2, hall, rfl⟩
      · cases h
  · rintro ⟨hfinite, hmost, hall, hsamples⟩
    simp only [follow, hfinite, hmost, Bool.not_true, Bool.false_or, decide_false,
      Bool.false_eq_true, if_false, ← hsamples]
    exact if_pos hall

theorem size_of_follow (h : p.follow table profile = .ok t) :
    t.size = Scalar.toCount (p.sampleCount profile) := by
  obtain ⟨-, -, -, hsamples⟩ := follow_eq_ok_iff.1 h
  rw [Trajectory.size, hsamples, size_samplesFrom, Array.size_empty, Nat.zero_add]

theorem samples_follow (h : p.follow table profile = .ok t) :
    t.samples = ((List.range t.size).map (p.sample table profile)).toArray := by
  obtain ⟨-, -, -, hsamples⟩ := follow_eq_ok_iff.1 h
  have hall := p.samplesFrom_eq table profile (Scalar.toCount (p.sampleCount profile)) 0 #[]
  rw [previous?, Array.empty_append, ← List.range_eq_range'] at hall
  rw [hsamples, hall, size_of_follow h]

theorem forall_mem_follow (h : p.follow table profile = .ok t) {P : Sample α → Prop} :
    (∀ sample ∈ t.samples, P sample) ↔ ∀ index < t.size, P (p.sample table profile index) := by
  rw [samples_follow h]
  simp

theorem sample_mem_follow (h : p.follow table profile = .ok t) {index : Nat} (hi : index < t.size) :
    p.sample table profile index ∈ t.samples :=
  (forall_mem_follow h).1 (fun _ hmem => hmem) index hi

theorem getElem?_follow (h : p.follow table profile = .ok t) {index : Nat} (hi : index < t.size) :
    t.samples[index]? = some (p.sample table profile index) := by
  rw [samples_follow h]
  simp [hi]

/-- What a plan consists of. -/
theorem plan_eq {waypoints : List (Waypoint α)} {limits : Limits α} {plan : Plan α}
    (h : p.plan waypoints limits = .ok plan) :
    limits.isValid = true ∧ Scalar.isPositive p.samplePeriod = true ∧
      (plan = .empty ∨ ∃ splines t, 2 ≤ waypoints.length ∧ Spline.fitAll waypoints = .ok splines ∧
        p.follow (.ofSplines splines)
          (.ofDistance (CurvatureTable.ofSplines splines).length limits) = .ok t ∧
        plan = .path (CurvatureTable.ofSplines splines).length waypoints.length t) := by
  unfold Planner.plan at h
  split at h
  · cases h
  · rename_i hvalid
    split at h
    · cases h
    · rename_i hperiod
      refine ⟨by simpa using hvalid, by simpa using hperiod, ?_⟩
      split at h
      · cases h
        exact Or.inl rfl
      · rename_i hmany
        split at h
        · cases h
        · rename_i splines hsplines
          simp only at h
          split at h
          · cases h
          · rename_i t hfollow
            cases h
            exact Or.inr ⟨splines, t, Nat.le_of_not_lt hmany, hsplines, hfollow, rfl⟩

theorem plan_ne_empty {waypoints : List (Waypoint α)} {limits : Limits α}
    (hmany : 2 ≤ waypoints.length) : p.plan waypoints limits ≠ .ok .empty := by
  intro h
  unfold Planner.plan at h
  simp only [Nat.not_lt.2 hmany, if_false] at h
  split at h
  · cases h
  · split at h
    · cases h
    · split at h
      · cases h
      · split at h <;> cases h

end Planner

end SkidSteer
