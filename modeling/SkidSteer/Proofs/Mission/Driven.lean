import SkidSteer.Proofs.Control.Driving
import SkidSteer.Proofs.Mission.Preparing
import SkidSteer.Proofs.Pacing

namespace SkidSteer

open Storage

def Params.converter (params : Params Float) : Converter Float :=
  ⟨params.unit, params.geometry.wheelDiameter, params.gearRatio, params.maxMotorSpeed⟩

namespace Leg

variable {params : Params Float} {leg : Leg}

def command (params : Params Float) (leg : Leg) (sample : Sample Float) : Command Float :=
  let (left, right) := params.converter.demands leg.options sample
  .drive left right

/-- What the chassis is told for a leg: the demands of every planned sample, and a stop. A leg
without a path is passed over. -/
def commands (params : Params Float) (leg : Leg) : List (Command Float) :=
  match leg.trajectory? params with
  | some trajectory => trajectory.samples.toList.map (leg.command params) ++ [.stop]
  | none => []

/-- What a chassis with this limit has on record once a leg is driven. -/
def chassis (params : Params Float) (limit : Float) (leg : Leg) : Drivetrain :=
  (leg.commands params).foldl Drivetrain.apply (.ofLimit limit)

/-- What is reported of a leg: how many samples were driven, how long that takes, and what reached
the motors. -/
def report (params : Params Float) (limit : Float) (leg : Leg) : Report :=
  match leg.trajectory? params with
  | some trajectory =>
    .driven leg.id trajectory.size (Course.drivingTime params trajectory.size)
      (leg.chassis params limit).left (leg.chassis params limit).right
  | none => .nothingPlanned leg.id

def deeds (params : Params Float) (limit : Float) (leg : Leg) : List Event :=
  (leg.commands params).map .command ++ [.ofReport (leg.report params limit)]

/-- The round after which the engine breaks off on a leg, if it does, when the chassis was told so
much before. -/
def brokenRound? (clock : Nat → Tick) (params : Params Float) (told : Nat) (leg : Leg) :
    Option Nat :=
  (leg.trajectory? params).bind fun trajectory =>
    params.brokenRound? clock told trajectory.size

/-- A leg that can be planned: nothing is planned for fewer than two waypoints, and a trajectory
with a sample at least for more. -/
inductive Planned (params : Params Float) (leg : Leg) : Prop where
  | empty (few : leg.waypoints.length < 2) (planned : leg.plan params = .ok .empty)
      (told : leg.commands params = [])
  | path (many : 2 ≤ leg.waypoints.length) (length : Float) (trajectory : Trajectory Float)
      (planned : leg.plan params = .ok (.path length leg.waypoints.length trajectory))
      (sampled : 1 ≤ trajectory.size) (most : trajectory.size ≤ Planner.mostSamples)
      (told : leg.commands params =
        trajectory.samples.toList.map (leg.command params) ++ [.stop])

theorem planned_of_plan {plan : Plan Float} (h : leg.plan params = .ok plan) :
    leg.Planned params := by
  rcases Planner.plan_cases h with ⟨hfew, rfl⟩ | ⟨hmany, length, t, rfl, hone, hmost⟩
  · exact .empty hfew h (by rw [commands, trajectory?, h])
  · exact .path hmany length t h hone hmost (by rw [commands, trajectory?, h])

/-- The engine does not break off on a leg where the periods of as many samples as there may be fit
between the latest tick that the clock shows and the end of the clock. -/
theorem Planned.brokenRound?_eq_none (hleg : leg.Planned params) {clock : Nat → Tick} {latest : Nat}
    (hclock : ∀ n, (clock n).nanoseconds ≤ latest) {period : Duration}
    (hperiod : params.loopPeriod? = some period)
    (hlimit : latest + Planner.mostSamples * period.nanoseconds < Tick.limit) (told : Nat) :
    leg.brokenRound? clock params told = none := by
  rw [brokenRound?, Option.bind_eq_none_iff]
  intro t ht
  have hmost : t.size ≤ Planner.mostSamples := by
    cases hleg with
    | empty few planned => simp [trajectory?, planned] at ht
    | path many length trajectory planned sampled most =>
      simp only [trajectory?, planned, Option.some.injEq] at ht
      rwa [← ht]
  have hfits : latest + t.size * period.nanoseconds < Tick.limit :=
    Nat.lt_of_le_of_lt (Nat.add_le_add_left (Nat.mul_le_mul_right _ hmost) _) hlimit
  rw [Params.brokenRound?, hperiod]
  exact Rate.broken?_eq_none latest (fun _ => hclock _) (by simp [Rate.new]) hfits

/-- With a period as long as the clock goes, the engine breaks off on each leg that has a path. -/
theorem Planned.brokenRound?_of_long (hleg : leg.Planned params) (hmany : 2 ≤ leg.waypoints.length)
    {period : Duration} (hperiod : params.loopPeriod? = some period)
    (hlong : Tick.limit ≤ period.nanoseconds) (clock : Nat → Tick) (told : Nat) :
    leg.brokenRound? clock params told = some 0 := by
  cases hleg with
  | empty few => omega
  | path many length trajectory planned sampled =>
    rw [brokenRound?, trajectory?, planned]
    change params.brokenRound? clock told trajectory.size = some 0
    rw [Params.brokenRound?, hperiod]
    exact Rate.broken?_of_long hlong sampled

/-- On none of these legs, driven one after the other, does the engine break off. -/
def Paced (clock : Nat → Tick) (params : Params Float) (legs : List Leg) : Prop :=
  ∀ before leg after, legs = before ++ leg :: after →
    leg.brokenRound? clock params (before.flatMap (commands params)).length = none

theorem Paced.nil {clock : Nat → Tick} : Paced clock params [] := by
  intro before leg after h
  cases List.append_ne_nil_of_right_ne_nil before (List.cons_ne_nil leg after) h.symm

theorem Paced.concat {clock : Nat → Tick} {legs : List Leg} (h : Paced clock params legs)
    (hnone : leg.brokenRound? clock params (legs.flatMap (commands params)).length = none) :
    Paced clock params (legs ++ [leg]) := by
  intro before other after he
  rcases List.eq_nil_or_concat after with rfl | ⟨rest, last, rfl⟩
  · obtain ⟨rfl, hsame⟩ := List.append_inj' he rfl
    cases hsame
    exact hnone
  · rw [List.concat_eq_append, ← List.cons_append, ← List.append_assoc] at he
    exact h before other rest (List.append_inj' he rfl).1

/-- What is kept of a trajectory is driven as it was planned. -/
theorem commands_run {trajectory : Trajectory Float} (ticket : Nat) :
    (Run.mk ⟨leg.id, leg.options⟩ (trajectory.map Binary64.ofFloat) ticket).commands
        params.converter =
      trajectory.samples.toList.map (leg.command params) := by
  rw [Run.commands, Trajectory.map, Array.toList_map, List.map_map]
  apply List.map_congr_left
  intro sample hs
  rw [Function.comp_apply, Binary64.sample_toFloat_ofFloat]
  rfl

end Leg

@[simp] theorem Event.command?_ofReport (r : Report) : (ofReport r).command? = none := rfl

@[simp] theorem Event.command?_command (c : Command Float) : (command c).command? = some c := rfl

/-- Who is not told of notices sees the deeds alone. -/
theorem filterMap_deeds {β : Type} {f : Event → Option β}
    (hf : ∀ notice, f (.ofNotice notice) = none) (events : List Event) :
    (deeds events).filterMap f = events.filterMap f := by
  rw [deeds, List.filterMap_filter]
  congr 1
  funext event
  rcases event with (notice | report) | command
  · exact (hf notice).symm
  · rfl
  · rfl

theorem Drivetrain.limit_foldl (commands : List (Command Float)) (d : Drivetrain) :
    (commands.foldl apply d).limit = d.limit := by
  induction commands generalizing d with
  | nil => rfl
  | cons command rest ih => exact ih _

theorem deeds_outputs (outputs : List Output) :
    deeds (outputs.map .ofOutput) = (outputs.filterMap Output.command?).map .command := by
  induction outputs with
  | nil => rfl
  | cons output rest ih =>
    rw [List.map_cons, ← List.singleton_append, deeds_append, ih]
    cases output <;> rfl

namespace Leg

theorem command?_deeds (params : Params Float) (limit : Float) (legs : List Leg) :
    (legs.flatMap (deeds params limit)).filterMap Event.command? =
      legs.flatMap (commands params) := by
  rw [List.filterMap_flatMap]
  congr 1
  funext leg
  have hcommand : Event.command? ∘ Event.command = some := rfl
  rw [deeds, List.filterMap_append, List.filterMap_map, hcommand, List.filterMap_some]
  exact List.append_nil _

end Leg

theorem commands_outputs (outputs : List Output) :
    (outputs.map Event.ofOutput).filterMap Event.command? = outputs.filterMap Output.command? := by
  rw [List.filterMap_map]
  congr 1
  funext output
  cases output <;> rfl

theorem commands_notices (notices : List Notice) :
    (notices.map Event.ofNotice).filterMap Event.command? = [] := by
  rw [List.filterMap_map, List.filterMap_eq_nil_iff]
  exact fun _ _ => rfl

namespace Course

variable {start c : Course} {limit : Float} {legs : List Leg} {leg : Leg} {clock : Nat → Tick}
  {directory : String}

/-- Some legs were driven since the start: the engine stands again and nothing else has changed. -/
structure Driving (start : Course) (limit : Float) (legs : List Leg) (c : Course) : Prop where
  ready : c.controller.Ready
  params : c.controller.params = start.controller.params
  converter : c.controller.converter = start.controller.params.converter
  registry : c.controller.shared.registry = start.controller.shared.registry
  chassis : c.controller.chassis.limit = Scalar.abs limit
  driven : deeds c.events =
    deeds start.events ++ legs.flatMap (Leg.deeds start.controller.params limit)

theorem drive_eq {path : Path} {asked final : Controller} {notices : List Notice}
    {outputs : List Output} (hp : c.controller.path? leg.id = some path)
    (hset : { c.controller with chassis := c.controller.chassis.clear }.setTarget leg.id
      leg.options = (asked, notices))
    (hpaced : c.controller.params.brokenRound? clock c.commands.length path.size = none)
    (hwait : asked.waitUntilSettled = (final, outputs)) :
    c.drive clock leg = (.ok (), ({ c with controller := final }.add
        (notices.map Event.ofNotice ++ outputs.map Event.ofOutput)).report
      (.driven leg.id path.size (drivingTime final.params path.size) final.chassis.left
        final.chassis.right)) := by
  rw [drive, hp]
  simp only [hset, hpaced, hwait]

theorem drive_eq_stuck {path : Path} {asked final : Controller} {notices : List Notice}
    {outputs : List Output} {round : Nat} (hp : c.controller.path? leg.id = some path)
    (hset : { c.controller with chassis := c.controller.chassis.clear }.setTarget leg.id
      leg.options = (asked, notices))
    (hbroken : c.controller.params.brokenRound? clock c.commands.length path.size = some round)
    (hbreak : asked.breakOff (round + 1) = (final, outputs)) :
    c.drive clock leg = (.error .stuck, { c with controller := final }.add
      (notices.map Event.ofNotice ++ outputs.map Event.ofOutput)) := by
  rw [drive, hp]
  simp only [hset, hbroken, hbreak]

theorem Driving.path? (h : Driving start limit legs c)
    (hpath : start.controller.path? leg.id = leg.path? start.controller.params) :
    c.controller.path? leg.id = leg.path? start.controller.params := by
  rw [← hpath, Controller.path?, h.registry]
  rfl

theorem commands_add (c : Course) (events : List Event) :
    (c.add events).commands = c.commands ++ events.filterMap Event.command? :=
  List.filterMap_append

theorem commands_eq (c : Course) :
    c.commands = (deeds c.events).filterMap Event.command? :=
  (filterMap_deeds (fun _ => rfl) c.events).symm

theorem Driving.commands (h : Driving start limit legs c) :
    c.commands = start.commands ++ legs.flatMap (Leg.commands start.controller.params) := by
  rw [commands_eq, commands_eq, h.driven, List.filterMap_append, Leg.command?_deeds]

/-- A leg without a path is passed over. -/
theorem Driving.drive_nothing (h : Driving start limit legs c)
    (hpath : start.controller.path? leg.id = leg.path? start.controller.params)
    (htrajectory : leg.trajectory? start.controller.params = none) :
    ∃ next, c.drive clock leg = (.ok (), next) ∧ Driving start limit (legs ++ [leg]) next := by
  have hnone : c.controller.path? leg.id = none := by
    rw [h.path? hpath, Leg.path?, htrajectory]
    rfl
  have hdrive : c.drive clock leg = (.ok (), c.add [.ofReport (.nothingPlanned leg.id)]) := by
    rw [drive, hnone]
    rfl
  have hdeeds : leg.deeds start.controller.params limit =
      [.ofReport (.nothingPlanned leg.id)] := by
    simp [Leg.deeds, Leg.commands, Leg.report, htrajectory]
  refine ⟨_, hdrive, h.ready, h.params, h.converter, h.registry, h.chassis, ?_⟩
  rw [add, deeds_append, h.driven, List.flatMap_append, List.flatMap_singleton, hdeeds,
    List.append_assoc]
  rfl

section Path

variable {trajectory : Trajectory Float}

theorem Driving.some_path (h : Driving start limit legs c)
    (hpath : start.controller.path? leg.id = leg.path? start.controller.params)
    (htrajectory : leg.trajectory? start.controller.params = some trajectory) :
    c.controller.path? leg.id = some (trajectory.map Binary64.ofFloat) := by
  rw [h.path? hpath, Leg.path?, htrajectory]
  rfl

theorem Driving.ready_cleared (h : Driving start limit legs c) :
    Controller.Ready { c.controller with chassis := c.controller.chassis.clear } :=
  ⟨h.ready.stage, h.ready.pending, h.ready.settled, h.ready.handled, h.ready.enabled,
    h.ready.running⟩

theorem Driving.brokenRound? (h : Driving start limit legs c)
    (htrajectory : leg.trajectory? start.controller.params = some trajectory) :
    c.controller.params.brokenRound? clock c.commands.length
        (trajectory.map Binary64.ofFloat).size =
      leg.brokenRound? clock start.controller.params c.commands.length := by
  rw [h.params, Trajectory.size_map, Leg.brokenRound?, htrajectory]
  rfl

/-- A leg with a path is driven with its own commands. -/
theorem Driving.drive_path (h : Driving start limit legs c)
    (hpath : start.controller.path? leg.id = leg.path? start.controller.params)
    (htrajectory : leg.trajectory? start.controller.params = some trajectory)
    (hpaced : leg.brokenRound? clock start.controller.params c.commands.length = none) :
    ∃ next, c.drive clock leg = (.ok (), next) ∧ Driving start limit (legs ++ [leg]) next := by
  let cleared : Controller := { c.controller with chassis := c.controller.chassis.clear }
  have hsome := h.some_path hpath htrajectory
  rcases hset : cleared.setTarget leg.id leg.options with ⟨asked, notices⟩
  obtain ⟨outputs, hdriven, htold⟩ := Controller.drive_ready h.ready_cleared hsome leg.options
  rw [hset] at hdriven
  rw [show cleared.converter = start.controller.params.converter from h.converter,
    Leg.commands_run] at htold
  have hcommands : outputs.filterMap Output.command? = leg.commands start.controller.params := by
    rw [htold, Leg.commands, htrajectory]
  have hclear : cleared.chassis = .ofLimit limit := by
    simp [cleared, Drivetrain.clear, Drivetrain.ofLimit, h.chassis]
  have hchassis : outputs.foldl Controller.receive cleared.chassis =
      leg.chassis start.controller.params limit := by
    rw [Drivetrain.foldl_receive, hcommands, hclear, Leg.chassis]
  rw [hchassis] at hdriven
  have hreport : leg.report start.controller.params limit =
      .driven leg.id trajectory.size (drivingTime start.controller.params trajectory.size)
        (leg.chassis start.controller.params limit).left
        (leg.chassis start.controller.params limit).right := by
    rw [Leg.report, htrajectory]
  have hdeeds : leg.deeds start.controller.params limit = deeds (outputs.map .ofOutput) ++
      deeds [.ofReport (leg.report start.controller.params limit)] := by
    rw [deeds_outputs, hcommands, Leg.deeds]
    rfl
  have hdrive := drive_eq hsome hset ((h.brokenRound? htrajectory).trans hpaced) hdriven
  rw [Trajectory.size_map, show cleared.params = start.controller.params from h.params,
    ← hreport] at hdrive
  refine ⟨_, hdrive, ⟨rfl, ?_, rfl, rfl, ?_, ?_⟩, rfl, h.converter, h.registry, ?_, ?_⟩
  · exact h.ready.pending
  · exact h.ready.enabled
  · exact h.ready.running
  · exact (Drivetrain.limit_foldl ..).trans rfl
  · rw [report, add, add, List.flatMap_append, List.flatMap_singleton, hdeeds]
    simp only [deeds_append, deeds_notices, List.nil_append, h.driven, List.append_assoc]

/-- A leg on which the engine breaks off is driven to there and no further. -/
theorem Driving.drive_stuck (h : Driving start limit legs c)
    (hpath : start.controller.path? leg.id = leg.path? start.controller.params) {round : Nat}
    (hbroken : leg.brokenRound? clock start.controller.params c.commands.length = some round) :
    ∃ next, c.drive clock leg = (.error .stuck, next) ∧
      next.commands =
        c.commands ++ (leg.commands start.controller.params).take (round + 1) := by
  obtain ⟨trajectory, htrajectory, hround⟩ := Option.bind_eq_some_iff.1 hbroken
  have hlast : round < trajectory.size := by
    have hmem := Rate.broken?_mem hround
    omega
  let cleared : Controller := { c.controller with chassis := c.controller.chassis.clear }
  have hsome := h.some_path hpath htrajectory
  rcases hset : cleared.setTarget leg.id leg.options with ⟨asked, notices⟩
  rcases hbreak : asked.breakOff (round + 1) with ⟨final, outputs⟩
  have hsize : round + 1 ≤ (trajectory.map Binary64.ofFloat).size := by
    rw [Trajectory.size_map]
    exact hlast
  have htold := Controller.breakOff_ready h.ready_cleared hsome leg.options hsize
  rw [hset, hbreak, show cleared.converter = start.controller.params.converter from h.converter,
    Leg.commands_run] at htold
  refine ⟨_, drive_eq_stuck hsome hset ((h.brokenRound? htrajectory).trans hbroken) hbreak, ?_⟩
  have hcommands : (leg.commands start.controller.params).take (round + 1) =
      outputs.filterMap Output.command? := by
    rw [htold, Leg.commands, htrajectory, List.take_append_of_le_length]
    simpa [Trajectory.size] using hlast
  rw [commands_add, List.filterMap_append, commands_notices, commands_outputs, List.nil_append,
    hcommands]
  rfl

end Path

theorem drive_cases (clock : Nat → Tick) (h : Driving start limit legs c)
    (hpath : start.controller.path? leg.id = leg.path? start.controller.params) :
    (leg.brokenRound? clock start.controller.params c.commands.length = none ∧
      ∃ next, c.drive clock leg = (.ok (), next) ∧ Driving start limit (legs ++ [leg]) next) ∨
    ∃ round, leg.brokenRound? clock start.controller.params c.commands.length = some round ∧
      ∃ next, c.drive clock leg = (.error .stuck, next) ∧
        next.commands =
          c.commands ++ (leg.commands start.controller.params).take (round + 1) := by
  cases hbroken : leg.brokenRound? clock start.controller.params c.commands.length with
  | some round => exact Or.inr ⟨round, rfl, h.drive_stuck hpath hbroken⟩
  | none =>
    refine Or.inl ⟨rfl, ?_⟩
    cases htrajectory : leg.trajectory? start.controller.params with
    | none => exact h.drive_nothing hpath htrajectory
    | some trajectory => exact h.drive_path hpath htrajectory hbroken

/-- How the driving of some legs ends: all are driven, or the engine breaks off on one of them. -/
inductive Driven (clock : Nat → Tick) (start : Course) (limit : Float) (legs : List Leg) :
    Except Failure Unit × Course → Prop where
  | all {last : Course} (paced : Leg.Paced clock start.controller.params legs)
      (driving : Driving start limit legs last) : Driven clock start limit legs (.ok (), last)
  | stuck {last : Course} (before : List Leg) (leg : Leg) (after : List Leg)
      (listed : legs = before ++ leg :: after)
      (paced : Leg.Paced clock start.controller.params before) (round : Nat)
      (broken : leg.brokenRound? clock start.controller.params
        (before.flatMap (Leg.commands start.controller.params)).length = some round)
      (told : last.commands = before.flatMap (Leg.commands start.controller.params) ++
        (leg.commands start.controller.params).take (round + 1)) :
      Driven clock start limit legs (.error .stuck, last)

theorem driven_each (clock : Nat → Tick) (h : Driving start limit [] c)
    (hquiet : start.commands = [])
    (hpaths : ∀ leg ∈ legs, start.controller.path? leg.id = leg.path? start.controller.params) :
    Driven clock start limit legs (each (drive clock) legs c) := by
  let params := start.controller.params
  have hkeep : ∀ before leg after c, legs = before ++ leg :: after →
      Driving start limit before c ∧ Leg.Paced clock params before →
      (∃ next, c.drive clock leg = (.ok (), next) ∧
        Driving start limit (before ++ [leg]) next ∧ Leg.Paced clock params (before ++ [leg])) ∨
      ∃ e next, c.drive clock leg = (.error e, next) ∧ Leg.Paced clock params before ∧
        e = .stuck ∧
        ∃ round, leg.brokenRound? clock params (before.flatMap (Leg.commands params)).length =
            some round ∧
          next.commands = before.flatMap (Leg.commands params) ++
            (leg.commands params).take (round + 1) := by
    rintro before leg after c rfl ⟨hc, hpaced⟩
    have htold : c.commands = before.flatMap (Leg.commands params) := by
      rw [hc.commands, hquiet, List.nil_append]
    rcases drive_cases clock hc (hpaths leg (by simp)) with
      ⟨hnone, next, hnext, hdriving⟩ | ⟨round, hbroken, next, hnext, hsent⟩
    · rw [htold] at hnone
      exact Or.inl ⟨next, hnext, hdriving, hpaced.concat hnone⟩
    · rw [htold] at hbroken hsent
      exact Or.inr ⟨_, next, hnext, hpaced, rfl, round, hbroken, hsent⟩
  rcases each_cases _ _ hkeep ⟨h, .nil⟩ with ⟨last, hlast, hdriving, hpaced⟩ |
    ⟨before, leg, after, hlegs, e, last, hlast, hpaced, rfl, round, hbroken, htold⟩
  · rw [hlast]
    exact .all hpaced hdriving
  · rw [hlast]
    exact .stuck before leg after hlegs hpaced round hbroken htold

theorem Registering.ready (h : Registering start c) (hready : start.controller.Ready) :
    c.controller.Ready := by
  obtain ⟨entries, he⟩ := h.controller
  rw [he]
  exact ⟨hready.stage, hready.pending, hready.settled, hready.handled, hready.enabled,
    hready.running⟩

theorem Registering.same (h : Registering start c) :
    c.controller.params = start.controller.params ∧
      c.controller.converter = start.controller.converter ∧
      c.controller.chassis = start.controller.chassis := by
  obtain ⟨entries, he⟩ := h.controller
  rw [he]
  exact ⟨rfl, rfl, rfl⟩

theorem nodup_ids (hids : (legs.map fun leg => cleanName leg.id.toList).Nodup) :
    (legs.map Leg.id).Nodup := by
  apply List.Nodup.of_map (fun id => cleanName id.toList)
  rwa [List.map_map]

/-- How a mission ends before its controller is closed: all its legs are driven, or the engine
breaks off on one of them, or one cannot be planned or stored and none is driven. -/
inductive Runs (clock : Nat → Tick) (start : Course) (m : Mission) :
    Except Failure Unit × Course → Prop where
  | driven {last : Course} (planned : ∀ leg ∈ m.legs, leg.Planned start.controller.params)
      (paced : Leg.Paced clock start.controller.params m.legs) (ready : last.controller.Ready)
      (events : deeds last.events = deeds start.events ++
        .ofReport (.ready ((Leg.entries start.controller.params m.legs).map (·.1))) ::
          (m.legs.flatMap (Leg.deeds start.controller.params m.chassisLimit) ++
            [.ofReport .finished])) : Runs clock start m (.ok (), last)
  | stuck {last : Course} (planned : ∀ leg ∈ m.legs, leg.Planned start.controller.params)
      (before : List Leg) (leg : Leg) (after : List Leg) (listed : m.legs = before ++ leg :: after)
      (paced : Leg.Paced clock start.controller.params before) (round : Nat)
      (broken : leg.brokenRound? clock start.controller.params
        (before.flatMap (Leg.commands start.controller.params)).length = some round)
      (told : last.commands = before.flatMap (Leg.commands start.controller.params) ++
        (leg.commands start.controller.params).take (round + 1)) :
      Runs clock start m (.error .stuck, last)
  | unprepared {last : Course} (leg : Leg) (listed : leg ∈ m.legs) (e : Failure)
      (why : Unprepared start.controller.params m.directory leg e last.files)
      (ready : last.controller.Ready) (events : deeds last.events = deeds start.events) :
      Runs clock start m (.error e, last)

/-- What was prepared and loaded again is ready to be driven. -/
theorem Prepared.begins_driving (h : Prepared start directory legs c)
    (hready : start.controller.Ready)
    (hconverter : start.controller.converter = start.controller.params.converter)
    (hchassis : start.controller.chassis.limit = Scalar.abs limit) :
    Driving (c.report (.ready c.controller.paths)) limit []
      (c.report (.ready c.controller.paths)) := by
  obtain ⟨hparams, hconverter', hchassis'⟩ :
      c.controller.params = start.controller.params ∧
        c.controller.converter = start.controller.converter ∧
        c.controller.chassis = start.controller.chassis := h.registering.same
  refine ⟨h.registering.ready hready, rfl, ?_, rfl, ?_, (List.append_nil _).symm⟩
  · change c.controller.converter = c.controller.params.converter
    rw [hconverter', hconverter, hparams]
  · change c.controller.chassis.limit = Scalar.abs limit
    rw [hchassis', hchassis]

theorem Prepared.deeds_ready (h : Prepared start directory legs c) :
    deeds (c.report (.ready c.controller.paths)).events = deeds start.events ++
      [.ofReport (.ready ((Leg.entries start.controller.params legs).map (·.1)))] := by
  have hids : c.controller.paths =
      (Leg.entries start.controller.params legs).map (·.1) := by
    rw [h.controller]
    rfl
  rw [← hids, ← h.quiet]
  exact deeds_append ..

theorem runs_run (clock : Nat → Tick) {m : Mission} (hready : start.controller.Ready)
    (hempty : start.controller = start.controller.knowing [])
    (hconverter : start.controller.converter = start.controller.params.converter)
    (hchassis : start.controller.chassis.limit = Scalar.abs m.chassisLimit)
    (hquiet : start.commands = [])
    (hids : (m.legs.map fun leg => cleanName leg.id.toList).Nodup) :
    Runs clock start m (run clock start m) := by
  rcases prepare_all start m.directory hempty hids with
    ⟨prepared, hprepare, hprepared⟩ | ⟨leg, hl, e, c, hprepare, hwhy, hc⟩
  · -- Everything is prepared and loaded again; the engine has told nothing yet.
    have hplanned : ∀ leg ∈ m.legs, leg.Planned start.controller.params := by
      intro leg hl
      obtain ⟨plan, hplan⟩ := hprepared.planned leg hl
      exact Leg.planned_of_plan hplan
    obtain ⟨loaded, hreload, hloaded⟩ := reload_all hprepared (nodup_ids hids)
    let ready := loaded.report (.ready loaded.controller.paths)
    have hparams : ready.controller.params = start.controller.params :=
      hloaded.registering.same.1
    have hpaths : ∀ leg ∈ m.legs,
        ready.controller.path? leg.id = leg.path? ready.controller.params := by
      intro leg hl
      change loaded.controller.path? leg.id = leg.path? loaded.controller.params
      rw [hloaded.controller]
      exact Leg.lookup_entries (nodup_ids hids) hl
    have hevents := hloaded.deeds_ready
    have hsilent : ready.commands = [] := by
      rw [commands_eq, hevents, List.filterMap_append, ← commands_eq, hquiet]
      rfl
    have hdriven := driven_each clock (hloaded.begins_driving hready hconverter hchassis) hsilent
      hpaths
    rw [run, hprepare]
    simp only [hreload]
    rcases hdrive : each (drive clock) m.legs ready with ⟨result, last⟩
    rw [hdrive] at hdriven
    cases hdriven with
    | all paced driving =>
      rw [hparams] at paced
      refine .driven hplanned paced driving.ready ?_
      rw [report, add, deeds_append, driving.driven, hevents, hparams, List.append_assoc,
        List.append_assoc]
      rfl
    | stuck before leg after listed paced round broken told =>
      rw [hparams] at paced broken told
      exact .stuck hplanned before leg after listed paced round broken told
  · rw [run, hprepare]
    exact .unprepared leg hl e hwhy (hc.ready hready) hc.quiet

end Course

end SkidSteer
