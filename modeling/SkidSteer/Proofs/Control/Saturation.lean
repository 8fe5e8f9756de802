import SkidSteer.Proofs.Control.Disabling
import SkidSteer.Proofs.Control.Paths
import SkidSteer.Proofs.Binary64.Order
import SkidSteer.Proofs.Planning.Steps

namespace SkidSteer

open Binary64

/-- A number that is no larger than the limit, either way. -/
def WithinLimit (limit v : Float) : Prop := v.isNaN = false ∧ -limit ≤ v ∧ v ≤ limit

theorem saturate_within {limit demand : Float} (hl : limit.isNaN = false)
    (hd : demand.isNaN = false) : WithinLimit limit.abs (saturate limit.abs demand) := by
  have hlimit : limit.abs.isNaN = false := (isNaN_abs limit).trans hl
  obtain ⟨hlow, hhigh⟩ := clamp_within hd hlimit (neg_abs_le hl)
  exact ⟨isNaN_of_le hhigh, hlow, hhigh⟩

theorem saturate_within_iff {limit demand : Float} (hl : limit.isNaN = false) :
    WithinLimit limit.abs (saturate limit.abs demand) ↔ demand.isNaN = false := by
  constructor
  · intro h
    rw [Bool.eq_false_iff]
    intro hd
    have hv := h.1
    rw [saturate, clamp_of_isNaN hd, hd] at hv
    cases hv
  · exact saturate_within hl

theorem stop_within {limit : Float} (hl : limit.isNaN = false) :
    WithinLimit limit.abs 0.0 :=
  ⟨rfl, zero_within hl⟩

namespace Controller

variable {c : Controller} {P : Path → Prop}

theorem mem_told {moments : List Moment} {command : Command Float} (h : command ∈ told moments) :
    ∃ m ∈ moments, command ∈ m.told :=
  List.mem_flatMap.1 h

/-- What the chassis is told is a stop or comes from a sample of a path. -/
theorem Paths.told {m : Moment} (hc : m.before.Consistent) (h : Paths P m.before)
    {command : Command Float} (hm : command ∈ m.told) :
    command = .stop ∨ ∃ run : Run, P run.path ∧ command ∈ run.commands m.before.converter := by
  obtain ⟨before, a⟩ := m
  cases a with
  | request r => cases hm
  | engine =>
    cases hc.turn with
    | sends run index sent was of shared now said =>
      rw [said, List.mem_singleton] at hm
      subst hm
      refine Or.inr ⟨run, h.driven run ?_, List.mem_of_getElem? of⟩
      change before.stage = _ at was
      rw [was]
      rfl
    | takes run was shut pending enabled target path ticket shared now said =>
      rw [said] at hm
      split at hm
      · cases hm
      · exact Or.inl (List.mem_singleton.mp hm)
    | stays was shut nothing shared now said =>
      rw [said] at hm
      split at hm
      · cases hm
      · exact Or.inl (List.mem_singleton.mp hm)
    | ends run reason was other shared now said | finishes was shared now said =>
      rw [said] at hm
      exact Or.inl (List.mem_singleton.mp hm)
    | _ =>
      rename_i said
      rw [said] at hm
      cases hm

end Controller

def Sample.MovesByNumbers (sample : Sample Binary64) : Prop :=
  sample.left.velocity.toFloat.isNaN = false ∧ sample.right.velocity.toFloat.isNaN = false

theorem Planner.plan_finite {p : Planner Float} {waypoints : List (Waypoint Float)}
    {limits : Limits Float} {plan : Plan Float} (h : p.plan waypoints limits = .ok plan) :
    ∀ sample ∈ plan.trajectory.samples, sample.all Float.isFinite = true := by
  obtain ⟨-, -, rfl | ⟨splines, t, -, -, hfollow, rfl⟩⟩ := plan_eq h
  · intro sample hs
    cases Array.not_mem_empty sample hs
  · obtain ⟨-, -, hall, -⟩ := follow_eq_ok_iff.1 hfollow
    exact Array.all_eq_true_iff_forall_mem.1 hall

/-- Some planner made the path, whatever the waypoints and limits were. -/
def Trajectory.IsPlanned (path : Path) : Prop :=
  ∃ (p : Planner Float) (waypoints : List (Waypoint Float)) (limits : Limits Float)
    (plan : Plan Float),
    p.plan waypoints limits = .ok plan ∧ path = plan.trajectory.map Binary64.ofFloat

theorem Trajectory.IsPlanned.movesByNumbers {path : Path} (h : path.IsPlanned) :
    ∀ sample ∈ path.samples, sample.MovesByNumbers := by
  obtain ⟨p, waypoints, limits, plan, hplan, rfl⟩ := h
  intro sample hs
  obtain ⟨planned, hp, rfl⟩ := Array.mem_map.1 hs
  have hall := Planner.plan_finite hplan planned hp
  simp only [Sample.all, Segment.all, Bool.and_eq_true] at hall
  obtain ⟨⟨⟨-, hleft⟩, -⟩, ⟨-, hright⟩, -⟩ := hall
  exact ⟨(isNaN_ofFloat _).trans (isNaN_of_isFinite hleft),
    (isNaN_ofFloat _).trans (isNaN_of_isFinite hright)⟩

namespace Command

def IsNumber : Command Float → Prop
  | .drive left right => left.isNaN = false ∧ right.isNaN = false
  | .stop => True

/-- A command asks neither motor for more than the chassis limit. -/
def Within (limit : Float) (command : Command Float) : Prop :=
  WithinLimit limit (command.velocities limit).1 ∧ WithinLimit limit (command.velocities limit).2

theorem within_iff {limit : Float} (hl : limit.isNaN = false) (command : Command Float) :
    command.Within limit.abs ↔ command.IsNumber := by
  cases command with
  | drive left right => exact and_congr (saturate_within_iff hl) (saturate_within_iff hl)
  | stop => exact iff_of_true ⟨stop_within hl, stop_within hl⟩ trivial

end Command

/-- Driving in wheel speeds, a run asks for numbers where its sample has numbers. -/
theorem Run.command_isNumber {run : Run} {converter : Converter Float}
    (hu : converter.unit = .linear) {sample : Sample Binary64} (h : sample.MovesByNumbers) :
    (run.command converter (sample.map Binary64.toFloat)).IsNumber := by
  obtain ⟨hleft, hright⟩ := h
  have hneg : ∀ x : Float, x.isNaN = false → (-x).isNaN = false :=
    fun x hx => (isNaN_neg x).trans hx
  simp only [Run.command, Converter.demands, Converter.demand, hu, Command.IsNumber]
  unfold Sample.oriented
  cases run.target.options.reverse <;> cases run.target.options.mirrored
  · exact ⟨hleft, hright⟩
  · exact ⟨hright, hleft⟩
  · exact ⟨hneg _ hleft, hneg _ hright⟩
  · exact ⟨hneg _ hright, hneg _ hleft⟩

namespace Controller

variable (params : Params Float) (converter : Converter Float)

/-- Each motor gets a number within the chassis limit exactly where the demand is a number, and all
demands come from samples of registered paths. Driving in wheel speeds, the motors stay within the
limit when every registered path was planned or has numbers for velocities. -/
theorem motors_within_limit_iff_numbers (maxVelocity : Float) (hm : maxVelocity.isNaN = false)
    (actions : List Action) :
    let start := fresh params converter (.ofLimit maxVelocity)
    let commands := told (start.history actions)
    (start.after actions).chassis = commands.foldl Drivetrain.apply (.ofLimit maxVelocity) ∧
    (∀ command ∈ commands, command.Within maxVelocity.abs ↔ command.IsNumber) ∧
    (∀ command ∈ commands, command = .stop ∨ ∃ run : Run,
      (∃ id, .request (.register id run.path) ∈ actions) ∧ command ∈ run.commands converter) ∧
    (converter.unit = .linear →
      (∀ id path, .request (.register id path) ∈ actions →
        path.IsPlanned ∨ ∀ sample ∈ path.samples, sample.MovesByNumbers) →
      ∀ command ∈ commands, command.Within maxVelocity.abs) := by
  intro start commands
  have hc : start.Consistent := consistent_fresh params converter (.ofLimit maxVelocity)
  have hpaths : Paths (fun path => ∃ id, .request (.register id path) ∈ actions) start :=
    Paths.fresh params converter (.ofLimit maxVelocity)
  have horigin : ∀ command ∈ commands, command = .stop ∨ ∃ run : Run,
      (∃ id, .request (.register id run.path) ∈ actions) ∧ command ∈ run.commands converter := by
    intro command hcommand
    obtain ⟨m, hmoment, htold⟩ := mem_told hcommand
    have hbefore := (hpaths.after hc fun id path h _ => ⟨id, h⟩).1 m hmoment
    have hconverter : m.before.converter = converter := moment_converter hmoment
    rw [← hconverter]
    exact hbefore.told (hc.moment hmoment) htold
  refine ⟨chassis_after start actions, fun command _ => Command.within_iff hm command, horigin, ?_⟩
  intro hu hnumbers command hcommand
  rw [Command.within_iff hm]
  rcases horigin command hcommand with rfl | ⟨run, ⟨id, hr⟩, hrun⟩
  · trivial
  · have hmoves : ∀ sample ∈ run.path.samples, sample.MovesByNumbers :=
      (hnumbers id run.path hr).elim Trajectory.IsPlanned.movesByNumbers fun h => h
    obtain ⟨sample, hs, rfl⟩ := List.mem_map.1 hrun
    exact Run.command_isNumber hu (hmoves sample (Array.mem_toList_iff.1 hs))

/-- A path of two samples that asks for twice what a limit of one allows. -/
def twiceTheLimit : Path :=
  let fast : Segment Binary64 := ⟨⟨0⟩, ⟨0x4000000000000000⟩, ⟨0⟩⟩
  let back : Segment Binary64 := ⟨⟨0⟩, ⟨0xc000000000000000⟩, ⟨0⟩⟩
  ⟨#[⟨fast, back⟩, ⟨fast, back⟩]⟩

def overdriven : List Action :=
  [.request (.register "A" twiceTheLimit), .request (.setTarget ⟨"A", .forward⟩)] ++
    List.replicate 6 .engine

/-- Where a path asks for twice the limit, one motor gets the limit and the other one its opposite,
and nothing that either gets is beyond it. -/
theorem motors_at_unit_limit :
    let start := fresh (.ofGeometry ⟨1.0, 1.0, 1.0⟩ ⟨1.0, 1.0⟩ 1.0) ⟨.linear, 1.0, 1.0, 1.0⟩
      (.ofLimit 1.0)
    (1.0 : Float).isNaN = false ∧
      (start.after overdriven).chassis.left.last = 1.0 ∧
      (start.after overdriven).chassis.right.last = -1.0 ∧
      ∀ command ∈ told (start.history overdriven), command.Within (1.0 : Float).abs := by
  have hnumbers : ∀ id path, .request (.register id path) ∈ overdriven →
      path.IsPlanned ∨ ∀ sample ∈ path.samples, sample.MovesByNumbers := by
    intro id path hr
    simp only [overdriven, List.cons_append, List.nil_append, List.mem_cons, List.mem_replicate,
      reduceCtorEq, and_false, or_false, Action.request.injEq, Request.register.injEq] at hr
    obtain ⟨-, rfl⟩ := hr
    refine Or.inr fun sample hs => ?_
    simp only [twiceTheLimit, List.mem_toArray, List.mem_cons, List.not_mem_nil, or_false,
      or_self] at hs
    rw [hs]
    exact ⟨rfl, rfl⟩
  exact ⟨rfl, rfl, by decide +kernel, (motors_within_limit_iff_numbers
    (.ofGeometry ⟨1.0, 1.0, 1.0⟩ ⟨1.0, 1.0⟩ 1.0) ⟨.linear, 1.0, 1.0, 1.0⟩ 1.0 rfl
    overdriven).2.2.2 rfl hnumbers⟩

def notNumbers : Path :=
  let segment : Segment Binary64 := ⟨⟨0⟩, ⟨0x7ff8000000000000⟩, ⟨0⟩⟩
  ⟨#[⟨segment, segment⟩]⟩

/-- A path with velocities that are no numbers is driven by a controller whose parameters hold, and
neither motor gets a number. -/
theorem motor_gets_no_number :
    let params := { Params.ofGeometry ⟨1.0, 1.0, 1.0⟩ ⟨1.0, 1.0⟩ 1.0 with unit := .linear }
    let start := fresh params ⟨.linear, 1.0, 1.0, 200.0⟩ (.ofLimit 1.0)
    let driven := start.after ([.request (.register "A" notNumbers),
      .request (.setTarget ⟨"A", .forward⟩)] ++ List.replicate 6 .engine)
    create params (.ofLimit 1.0) = .ok start ∧ driven.chassis.left.demands = 1 ∧
      driven.chassis.left.last.isNaN = true ∧ driven.chassis.right.last.isNaN = true :=
  ⟨rfl, rfl, rfl, rfl⟩

end Controller

end SkidSteer
