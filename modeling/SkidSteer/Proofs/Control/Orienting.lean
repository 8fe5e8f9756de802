import SkidSteer.Proofs.Planning.Reals
import SkidSteer.Proofs.Control.Driving
import SkidSteer.Proofs.Params

namespace SkidSteer

open Scalar

namespace Trajectory

variable {α : Type} [Scalar α]

/-- What reaches the left and the right motor in a run that nobody disturbs: the demands of every
sample, saturated, and a stop. -/
def motorValues (t : Trajectory α) (limit : α) (c : Converter α) (o : RunOptions) :
    List (α × α) :=
  t.samples.toList.map (fun s =>
    (Command.drive (c.demands o s).1 (c.demands o s).2).velocities limit) ++
      [Command.stop.velocities limit]

end Trajectory

theorem Drivetrain.foldl_apply (commands : List (Command Float)) (d : Drivetrain) :
    commands.foldl apply d = ⟨d.limit,
      (commands.map fun c => (c.velocities d.limit).1).foldl MotorRecord.note d.left,
      (commands.map fun c => (c.velocities d.limit).2).foldl MotorRecord.note d.right⟩ := by
  induction commands generalizing d with
  | nil => rfl
  | cons command rest ih => exact ih _

/-- The motors get these values from an engine that stands when a path is set as its target. -/
theorem Controller.drive_ready_motors {c : Controller} (h : c.Ready) {id : String} {path : Path}
    (hp : c.path? id = some path) (o : RunOptions) :
    let values := (path.map Binary64.toFloat).motorValues c.chassis.limit c.converter o
    let driven := (c.setTarget id o).1.waitUntilSettled
    (driven.2.filterMap Output.command?).map (Command.velocities c.chassis.limit) = values ∧
      driven.1.chassis = ⟨c.chassis.limit,
        (values.map Prod.fst).foldl MotorRecord.note c.chassis.left,
        (values.map Prod.snd).foldl MotorRecord.note c.chassis.right⟩ := by
  intro values driven
  obtain ⟨outputs, hdriven, hcommands⟩ := drive_ready h hp o
  have hvalues : (outputs.filterMap Output.command?).map (Command.velocities c.chassis.limit) =
      values := by
    rw [hcommands, List.map_append, Run.commands, List.map_map]
    simp only [values, Trajectory.motorValues, Trajectory.map, Array.toList_map, List.map_map]
    rfl
  have houtputs : driven.2 = outputs := congrArg Prod.snd hdriven
  have hchassis : driven.1.chassis = outputs.foldl receive c.chassis :=
    congrArg (fun r => r.1.chassis) hdriven
  rw [houtputs, hchassis, Drivetrain.foldl_receive, Drivetrain.foldl_apply, ← hvalues, List.map_map,
    List.map_map]
  exact ⟨rfl, rfl⟩

theorem Scalar.clamp_real (x low high : ℝ) : clamp x low high = max (min x high) low := by
  simp only [clamp, min_def, max_def]
  split_ifs <;> linarith

/-- Saturation to a range that reaches as far both ways is odd. -/
theorem saturate_neg {limit : ℝ} (h : 0 ≤ limit) (x : ℝ) :
    saturate limit (-x) = -saturate limit x := by
  have hends : -limit ≤ limit := by linarith
  rw [saturate, saturate, clamp_real, clamp_real]
  calc max (min (-x) limit) (-limit)
      = min (max (-x) (-limit)) (max limit (-limit)) := max_min_distrib_right ..
    _ = min (-min x limit) (- -limit) := by rw [max_neg_neg, max_eq_left hends, neg_neg]
    _ = -max (min x limit) (-limit) := min_neg_neg ..

theorem saturate_monotone (limit : ℝ) : Monotone (saturate limit) := by
  intro x y h
  rw [saturate, saturate, clamp_real, clamp_real]
  exact max_le_max_right _ (min_le_min_right _ h)

theorem saturate_eq_zero_iff {limit : ℝ} (h : 0 < limit) {x : ℝ} :
    saturate limit x = 0 ↔ x = 0 := by
  rw [saturate, clamp_real]
  constructor
  · intro hzero
    rcases max_choice (min x limit) (-limit) with hmax | hmax
    · rcases min_choice x limit with hmin | hmin <;> linarith
    · linarith
  · intro hzero
    rw [hzero, min_eq_left h.le, max_eq_left (by linarith)]

namespace Converter

variable {c : Converter ℝ}

/-- Parameters that hold make a wheel that is there, a gear that turns, and for normalised demands a
largest motor speed. -/
structure Sound (c : Converter ℝ) : Prop where
  diameter : 0 < c.wheelDiameter
  gear : c.gearRatio ≠ 0
  largest : c.unit = .normalised → 0 < c.maxMotorSpeed

theorem ofParams_sound {p : Params ℝ} (h : p.validate = .ok ()) :
    ∃ c, ofParams p = .ok c ∧
      c = ⟨p.unit, p.geometry.wheelDiameter, p.gearRatio, p.maxMotorSpeed⟩ ∧ c.Sound := by
  have hsound := Params.validate_eq_ok_iff.1 h
  have hgear : p.gearRatio ≠ 0 := by
    have hturns := hsound.gear_turns
    norm_num at hturns
    exact hturns
  have hlargest : p.unit = .normalised → 0 < p.maxMotorSpeed := by
    intro hunit
    have hpositive := hsound.largest hunit
    norm_num at hpositive
    exact hpositive
  exact ⟨_, by rw [ofParams, h]; rfl, rfl, (isPositive_real _).1 hsound.diameter, hgear, hlargest⟩

/-- Motor rotations per minute for each metre per second of the wheel. -/
noncomputable def rate (c : Converter ℝ) : ℝ := 60 * c.gearRatio / (Real.pi * c.wheelDiameter)

theorem motorSpeed_real (c : Converter ℝ) (v : ℝ) :
    motorSpeed v c.wheelDiameter c.gearRatio = c.rate * v := by
  simp only [motorSpeed, rate, pi_real]
  norm_num
  ring

theorem Sound.rate_pos (h : c.Sound) (hgear : 0 < c.gearRatio) : 0 < c.rate :=
  div_pos (by linarith) (mul_pos Real.pi_pos h.diameter)

theorem Sound.rate_neg (h : c.Sound) (hgear : c.gearRatio < 0) : c.rate < 0 :=
  div_neg_of_neg_of_pos (by linarith) (mul_pos Real.pi_pos h.diameter)

theorem Sound.rate_ne_zero (h : c.Sound) : c.rate ≠ 0 := by
  rcases lt_or_gt_of_ne h.gear with hgear | hgear
  · exact (h.rate_neg hgear).ne
  · exact (h.rate_pos hgear).ne'

def rotational (c : Converter ℝ) : Converter ℝ := { c with unit := .rotational }

theorem demand_rotational (c : Converter ℝ) (v : ℝ) : c.rotational.demand v = c.rate * v :=
  motorSpeed_real c v

/-- The place of a motor speed between the largest one backwards and forwards is its share. -/
theorem Sound.demand_normalised (h : c.Sound) (hunit : c.unit = .normalised) (v : ℝ) :
    c.demand v = saturate 1 (c.rotational.demand v / c.maxMotorSpeed) := by
  have hlargest := h.largest hunit
  have hshare : rescale (-c.maxMotorSpeed, c.maxMotorSpeed) (-1.0, 1.0) (c.rate * v) =
      c.rate * v / c.maxMotorSpeed := by
    simp only [rescale]
    norm_num
    field_simp
    ring
  rw [demand_rotational]
  simp only [demand, hunit, motorSpeed_real, hshare, saturate]
  norm_num

theorem Sound.demand_neg (h : c.Sound) (v : ℝ) : c.demand (-v) = -c.demand v := by
  have hrotational : c.rotational.demand (-v) = -c.rotational.demand v := by
    rw [demand_rotational, demand_rotational, mul_neg]
  cases hunit : c.unit with
  | linear => simp only [demand, hunit]
  | rotational =>
    simp only [demand, hunit]
    exact hrotational
  | normalised =>
    rw [h.demand_normalised hunit, h.demand_normalised hunit, hrotational, neg_div,
      saturate_neg zero_le_one]

/-- No unit makes a demand of nothing, and nothing but a standstill makes none. -/
theorem Sound.demand_eq_zero_iff (h : c.Sound) {v : ℝ} : c.demand v = 0 ↔ v = 0 := by
  have hrotational : c.rotational.demand v = 0 ↔ v = 0 := by
    rw [demand_rotational, mul_eq_zero, or_iff_right h.rate_ne_zero]
  cases hunit : c.unit with
  | linear => simp only [demand, hunit]
  | rotational =>
    simp only [demand, hunit]
    exact hrotational
  | normalised =>
    rw [h.demand_normalised hunit, saturate_eq_zero_iff one_pos, div_eq_zero_iff,
      or_iff_left (h.largest hunit).ne', hrotational]

theorem Sound.rotational_strictMono (h : c.Sound) (hgear : 0 < c.gearRatio) :
    StrictMono c.rotational.demand := by
  intro v w hv
  rw [demand_rotational, demand_rotational]
  exact mul_lt_mul_of_pos_left hv (h.rate_pos hgear)

theorem Sound.rotational_strictAnti (h : c.Sound) (hgear : c.gearRatio < 0) :
    StrictAnti c.rotational.demand := by
  intro v w hv
  rw [demand_rotational, demand_rotational]
  exact mul_lt_mul_of_neg_left hv (h.rate_neg hgear)

/-- A normalised demand goes the way in which the rotational one goes. -/
theorem Sound.normalised_le (h : c.Sound) (hunit : c.unit = .normalised) {v w : ℝ}
    (hle : c.rotational.demand v ≤ c.rotational.demand w) : c.demand v ≤ c.demand w := by
  rw [h.demand_normalised hunit, h.demand_normalised hunit]
  exact saturate_monotone 1 (div_le_div_of_nonneg_right hle (h.largest hunit).le)

end Converter

section Options

variable {α : Type} [Scalar α]

theorem Converter.demands_mirrored (c : Converter α) (r m : Bool) (s : Sample α) :
    c.demands ⟨r, !m⟩ s = (c.demands ⟨r, m⟩ s).swap := by
  cases r <;> cases m <;> rfl

theorem Converter.Sound.demands_reversed {c : Converter ℝ} (h : c.Sound) (r m : Bool)
    (s : Sample ℝ) : c.demands ⟨!r, m⟩ s = -c.demands ⟨r, m⟩ s := by
  cases r <;> cases m <;>
    simp [demands, Sample.oriented, Sample.swapped, Sample.reversed, Segment.reversed, Segment.map,
      h.demand_neg]

theorem Command.velocities_swap (limit : α) (demands : α × α) :
    (Command.drive demands.swap.1 demands.swap.2).velocities limit =
      ((Command.drive demands.1 demands.2).velocities limit).swap := rfl

theorem Command.velocities_neg {limit : ℝ} (h : 0 ≤ limit) (demands : ℝ × ℝ) :
    (Command.drive (-demands).1 (-demands).2).velocities limit =
      -(Command.drive demands.1 demands.2).velocities limit :=
  Prod.ext (saturate_neg h demands.1) (saturate_neg h demands.2)

end Options

namespace Trajectory

variable {α : Type} [Scalar α] {c : Converter α} {limit : α} {o other : RunOptions}

/-- What two runs differ in at every sample, and leaves a stop a stop, is all that they differ
in. -/
theorem motorValues_map {f : α × α → α × α} (t : Trajectory α)
    (hdrive : ∀ s, (Command.drive (c.demands other s).1 (c.demands other s).2).velocities limit =
      f ((Command.drive (c.demands o s).1 (c.demands o s).2).velocities limit))
    (hstop : f (0.0, 0.0) = (0.0, 0.0)) :
    t.motorValues limit c other = (t.motorValues limit c o).map f := by
  simp only [motorValues, List.map_append, List.map_map, List.map_cons, List.map_nil]
  congr 1
  · exact List.map_congr_left fun s _ => hdrive s
  · rw [show Command.velocities limit .stop = (0.0, 0.0) from rfl, hstop]

theorem motorValues_mirrored (t : Trajectory α) (limit : α) (c : Converter α) (r m : Bool) :
    t.motorValues limit c ⟨r, !m⟩ = (t.motorValues limit c ⟨r, m⟩).map Prod.swap := by
  refine t.motorValues_map (fun s => ?_) rfl
  rw [c.demands_mirrored, Command.velocities_swap]

theorem motorValues_reversed {c : Converter ℝ} (h : c.Sound) {limit : ℝ} (hlimit : 0 ≤ limit)
    (t : Trajectory ℝ) (r m : Bool) :
    t.motorValues limit c ⟨!r, m⟩ = (t.motorValues limit c ⟨r, m⟩).map (- ·) := by
  refine t.motorValues_map (fun s => ?_) (by norm_num)
  rw [h.demands_reversed, Command.velocities_neg hlimit]

end Trajectory

/-- Whatever path an engine that stands is set to, the motors get its `motorValues`. Without
rounding, for parameters that hold, to drive backwards negates these and to mirror exchanges the
motors, whether the other option is given or not, so that the two commute and each undoes itself.
Each demand goes one way as the speed of the wheel grows: upward in the unit of the wheel, in the
direction of the gear ratio in the units of the motor. It is zero at a standstill only, and a
normalised one is the rotational one as a share of the largest, clamped. -/
theorem options_act_on_motors {p : Params ℝ} (hvalid : p.validate = .ok ()) (maxVelocity : ℝ)
    (t : Trajectory ℝ) :
    (∀ (d : Controller) (id : String) (path : Path) (o : RunOptions), d.Ready →
      d.path? id = some path →
      let values := (path.map Binary64.toFloat).motorValues d.chassis.limit d.converter o
      let driven := (d.setTarget id o).1.waitUntilSettled
      (driven.2.filterMap Output.command?).map (Command.velocities d.chassis.limit) = values ∧
        driven.1.chassis = ⟨d.chassis.limit,
          (values.map Prod.fst).foldl MotorRecord.note d.chassis.left,
          (values.map Prod.snd).foldl MotorRecord.note d.chassis.right⟩) ∧
    ∃ c, Converter.ofParams p = .ok c ∧
      (let values := fun r m => t.motorValues (Scalar.abs maxVelocity) c ⟨r, m⟩
      (∀ r m, values (!r) m = (values r m).map (- ·)) ∧
        (∀ r m, values r (!m) = (values r m).map Prod.swap) ∧
        ∀ r m, values (!r) (!m) = ((values r m).map (- ·)).map Prod.swap ∧
          values (!r) (!m) = ((values r m).map Prod.swap).map (- ·)) ∧
      (p.unit = .linear → StrictMono c.demand) ∧
      (p.unit = .rotational → (0 < p.gearRatio → StrictMono c.demand) ∧
        (p.gearRatio < 0 → StrictAnti c.demand)) ∧
      (p.unit = .normalised → (0 < p.gearRatio → Monotone c.demand) ∧
        (p.gearRatio < 0 → Antitone c.demand)) ∧
      (∀ v, c.demand v = 0 ↔ v = 0) ∧
      (p.unit = .normalised → ∀ v, c.demand v =
        max (-1) (min 1 (({ c with unit := .rotational } : Converter ℝ).demand v /
          p.maxMotorSpeed))) := by
  refine ⟨fun d id path o h hp => Controller.drive_ready_motors h hp o, ?_⟩
  obtain ⟨c, hc, hfields, hsound⟩ := Converter.ofParams_sound hvalid
  have hunit : c.unit = p.unit := congrArg Converter.unit hfields
  have hgear : c.gearRatio = p.gearRatio := congrArg Converter.gearRatio hfields
  have hlargest : c.maxMotorSpeed = p.maxMotorSpeed := congrArg Converter.maxMotorSpeed hfields
  have hreversed := t.motorValues_reversed hsound (abs_nonneg maxVelocity)
  have hmirrored := t.motorValues_mirrored |maxVelocity| c
  rw [← hunit, ← hgear, ← hlargest]
  refine ⟨c, hc, ⟨hreversed, hmirrored, fun r m => ⟨?_, ?_⟩⟩, ?_, ?_, ?_,
    fun v => hsound.demand_eq_zero_iff, ?_⟩
  · exact (hmirrored (!r) m).trans (congrArg (List.map Prod.swap) (hreversed r m))
  · exact (hreversed r (!m)).trans (congrArg (List.map (- ·)) (hmirrored r m))
  · intro hlinear v w hv
    simpa only [Converter.demand, hlinear] using hv
  · intro hrotational
    have hsame : c.demand = c.rotational.demand := by
      rw [Converter.rotational, ← hrotational]
    rw [hsame]
    exact ⟨hsound.rotational_strictMono, hsound.rotational_strictAnti⟩
  · intro hnormalised
    exact ⟨fun hpos v w hv => hsound.normalised_le hnormalised
        ((hsound.rotational_strictMono hpos).monotone hv),
      fun hneg v w hv => hsound.normalised_le hnormalised
        ((hsound.rotational_strictAnti hneg).antitone hv)⟩
  · intro hnormalised v
    rw [hsound.demand_normalised hnormalised, saturate, clamp_real, max_comm, min_comm]
    rfl

/-- A chassis whose gear turns the motors against the wheels. -/
noncomputable def Params.counterGeared (unit : CommandUnit) : Params ℝ :=
  { Params.ofGeometry ⟨1, 1, 1⟩ ⟨1, 1⟩ (-1) with unit }

theorem Params.validate_counterGeared (unit : CommandUnit) :
    (counterGeared unit).validate = .ok () := by
  have hperiod : isPositive (0.01 : ℝ) = true := (isPositive_real _).2 (by norm_num)
  have hlimits : (⟨1, 1, 1⟩ : Limits ℝ).isValid = true := (Limits.isValid_real _).2 (by norm_num)
  have hone : isPositive (1 : ℝ) = true := (isPositive_real _).2 one_pos
  have hgear : (-1 : ℝ) < 0.0 := by norm_num
  have hlargest : (0.0 : ℝ) < 200.0 := by norm_num
  exact validate_eq_ok_iff.2
    ⟨hone, hone, rfl, Or.inl hgear, hperiod, fun _ => hlargest, hlimits⟩

/-- Its normalised demands fall as the wheel speeds up, and backwards the motors get the negated
values; an engine that knows a path of one sample drives it both backwards and mirrored. -/
theorem options_act_on_counter_geared :
    let p := Params.counterGeared .normalised
    let one : Trajectory ℝ := ⟨#[⟨⟨0, 1, 0⟩, ⟨0, 2, 0⟩⟩]⟩
    let still : Segment Binary64 := ⟨⟨0⟩, ⟨0⟩, ⟨0⟩⟩
    let path : Path := ⟨#[⟨still, still⟩]⟩
    let d := (Controller.fresh (.ofGeometry ⟨1.0, 1.0, 1.0⟩ ⟨1.0, 1.0⟩ 1.0) ⟨.linear, 1.0, 1.0, 1.0⟩
      (.ofLimit 1.0)).after [.request (.register "A" path)]
    p.validate = .ok () ∧ p.unit = .normalised ∧ p.gearRatio < 0 ∧ d.Ready ∧
      d.path? "A" = some path ∧
      ((d.setTarget "A" ⟨true, true⟩).1.waitUntilSettled.2.filterMap Output.command?).map
          (Command.velocities d.chassis.limit) =
        (path.map Binary64.toFloat).motorValues d.chassis.limit d.converter ⟨true, true⟩ ∧
      ∃ c, Converter.ofParams p = .ok c ∧ Antitone c.demand ∧
        one.motorValues |-1| c ⟨true, false⟩ = (one.motorValues |-1| c .forward).map (- ·) := by
  intro p one still path d
  have hvalid : p.validate = .ok () := Params.validate_counterGeared .normalised
  have hgear : p.gearRatio < 0 := by
    change (-1 : ℝ) < 0
    norm_num
  have hready : d.Ready := ⟨rfl, rfl, rfl, rfl, rfl, rfl⟩
  have hpath : d.path? "A" = some path := rfl
  obtain ⟨hengine, c, hc, ⟨hreversed, -⟩, -, -, hmonotone, -⟩ :=
    options_act_on_motors hvalid (-1) one
  exact ⟨hvalid, rfl, hgear, hready, hpath, (hengine d "A" path ⟨true, true⟩ hready hpath).1,
    c, hc, (hmonotone rfl).2 hgear, hreversed false false⟩

/-- In the unit of the wheel the gear ratio has no part: with a gear that turns the motors against
the wheels the demand grows with the speed of the wheel all the same. -/
theorem linear_demand_not_counter_geared :
    let p := Params.counterGeared .linear
    p.validate = .ok () ∧ p.gearRatio < 0 ∧
      ∃ c, Converter.ofParams p = .ok c ∧ c.demand 0 < c.demand 1 ∧ ¬Antitone c.demand := by
  intro p
  have hvalid : p.validate = .ok () := Params.validate_counterGeared .linear
  obtain ⟨c, hc, rfl, -⟩ := Converter.ofParams_sound hvalid
  have hless : (0 : ℝ) < 1 := one_pos
  refine ⟨hvalid, ?_, _, hc, hless, fun h => ?_⟩
  · change (-1 : ℝ) < 0
    norm_num
  · exact absurd (h hless.le) (not_le.2 hless)

end SkidSteer
