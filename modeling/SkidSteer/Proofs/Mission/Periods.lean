import SkidSteer.Proofs.Binary64.Values
import SkidSteer.Proofs.Mission.Executed
import SkidSteer.Proofs.Params

namespace SkidSteer

open Binary64

namespace Duration

variable {x : Float}

/-- A number of seconds above zero is the nearest whole number of nanoseconds, unless it is too
large. -/
theorem ofSeconds?_cases (h : Scalar.isPositive x = true) :
    2 ^ 64 ≤ value x ∧ ofSeconds? x = none ∨
      value x < 2 ^ 64 ∧
        ∃ d, ofSeconds? x = some d ∧ Nearest (value x * perSecond) d.nanoseconds := by
  obtain ⟨m, e, -, hread⟩ := read_of_isPositive h
  have hpos : (0 : ℚ) < (fraction m e).2 := by exact_mod_cast fraction_pos m e
  have hvalue : value x = (fraction m e).1 / (fraction m e).2 := by
    rw [value, hread, fraction_eq]
    rfl
  have hlimit : 2 ^ 64 ≤ value x ↔ Nat.pow 2 64 * (fraction m e).2 ≤ (fraction m e).1 := by
    rw [hvalue, le_div_iff₀ hpos]
    exact_mod_cast Iff.rfl
  simp only [ofSeconds?, hread]
  by_cases hlarge : Nat.pow 2 64 * (fraction m e).2 ≤ (fraction m e).1
  · rw [if_pos hlarge]
    exact Or.inl ⟨hlimit.2 hlarge, rfl⟩
  · rw [if_neg hlarge]
    refine Or.inr ⟨not_le.1 (mt hlimit.1 hlarge), _, rfl, ?_⟩
    have hnearest := roundHalfEven_nearest ((fraction m e).1 * perSecond) (fraction_pos m e)
    rwa [Nat.cast_mul, mul_div_right_comm, ← hvalue] at hnearest

end Duration

namespace Mission

variable {params : Params Float}

/-- With parameters that hold, a period from `2 ^ 64` seconds on ends the program; with any shorter
one there is a controller, its loop period the nearest whole number of nanoseconds. That is some time
exactly for periods above half a nanosecond. -/
theorem launch_of_validate (hvalid : params.validate = .ok ()) (m : Mission) :
    (launch params m = .error .period ↔ 2 ^ 64 ≤ value params.samplePeriod) ∧
      (value params.samplePeriod < 2 ^ 64 → ∃ period,
        params.loopPeriod? = some period ∧
          Nearest (value params.samplePeriod * Duration.perSecond) period.nanoseconds ∧
          launch params m = .ok (.fresh params params.converter (.ofLimit m.chassisLimit),
            [.ofNotice .engineStarted, .ofNotice (.initialised params.unit period)])) ∧
      ((∃ period, params.loopPeriod? = some period ∧ 0 < period.nanoseconds) ↔
        1 / 2 < value params.samplePeriod * Duration.perSecond ∧
          value params.samplePeriod < 2 ^ 64) := by
  have hpositive := (Params.validate_eq_ok_iff.1 hvalid).period
  have hlaunch := create_eq hvalid (.ofLimit m.chassisLimit)
  rcases Duration.ofSeconds?_cases hpositive with ⟨hlong, hnone⟩ | ⟨hshort, period, hsome, hnearest⟩
  · have hperiod : params.loopPeriod? = none := hnone
    rw [launch, hlaunch, hperiod]
    refine ⟨iff_of_true rfl hlong, fun h => absurd hlong (not_le.2 h),
      iff_of_false ?_ fun h => absurd hlong (not_le.2 h.2)⟩
    rintro ⟨period, hsome, -⟩
    cases hsome
  · have hperiod : params.loopPeriod? = some period := hsome
    rw [launch, hlaunch, hperiod]
    refine ⟨iff_of_false (by simp) (not_le.2 hshort), fun _ => ⟨period, rfl, hnearest, rfl⟩, ?_⟩
    rw [← hnearest.pos_iff, and_iff_left hshort]
    constructor
    · rintro ⟨_, hsome, hpos⟩
      cases hsome
      exact hpos
    · exact fun hpos => ⟨period, rfl, hpos⟩

/-- At a hundred samples a second there is a controller, and a loop period of some time. -/
theorem launch_at_hundred_a_second :
    (sampledEvery 0.01).validate = .ok () ∧ ∃ period,
      (sampledEvery 0.01).loopPeriod? = some period ∧ 0 < period.nanoseconds ∧
        launch (sampledEvery 0.01) standing =
          .ok (.fresh (sampledEvery 0.01) (sampledEvery 0.01).converter
            (.ofLimit standing.chassisLimit),
            [.ofNotice .engineStarted, .ofNotice (.initialised .rotational period)]) := by
  have hvalid : (sampledEvery 0.01).validate = .ok () := by rfl
  have hvalue : value (sampledEvery 0.01).samplePeriod = 5764607523034235 * 2 ^ (-59 : ℤ) := by
    have hread : (ofFloat 0.01).read = .finite false 5764607523034235 (-59) := by rfl
    rw [value, show (sampledEvery 0.01).samplePeriod = 0.01 from rfl, hread]
    norm_num [Reading.value]
  obtain ⟨-, hlaunch, -⟩ := launch_of_validate hvalid standing
  obtain ⟨period, hperiod, hnearest, hlaunch⟩ := hlaunch (by rw [hvalue]; norm_num)
  refine ⟨hvalid, period, hperiod, hnearest.pos_iff.2 ?_, hlaunch⟩
  rw [hvalue, Duration.perSecond]
  norm_num

/-- The checks let a period pass that ends the program, and one that is no time at all. -/
theorem launch_beyond_the_range :
    (sampledEvery 1e20).validate = .ok () ∧
      launch (sampledEvery 1e20) standing = .error .period ∧
      (sampledEvery 1e-10).validate = .ok () ∧ (sampledEvery 1e-10).loopPeriod? = some .zero := by
  have hvalid : (sampledEvery 1e20).validate = .ok () := by rfl
  have hperiod : (sampledEvery 1e20).loopPeriod? = none := by decide +kernel
  refine ⟨hvalid, ?_, by rfl, by decide +kernel⟩
  rw [launch, create_eq hvalid, hperiod]

end Mission

end SkidSteer
