import SkidSteer.Proofs.Control.Failing
import SkidSteer.Proofs.Control.Settling
import SkidSteer.Proofs.Planning.SampleCount

namespace SkidSteer

/-- What the chassis is told where a trajectory is driven: each sample's demands, then a stop. -/
def Trajectory.commands (converter : Converter Float) (options : RunOptions)
    (t : Trajectory Float) : List (Command Float) :=
  t.samples.toList.map (fun sample =>
    .drive (converter.demands options sample).1 (converter.demands options sample).2) ++ [.stop]

namespace Controller

variable {c d e : Controller} {actions later : List Action} {first second : List (Command Float)}

/-- What a move is asked to drive: the plan through its waypoints, with its options. A plan that
fails is not driven, nor is one through fewer than two waypoints. -/
def moveCommands (c : Controller) (waypoints : List (Waypoint Float)) (options : RunOptions) :
    List (Command Float) :=
  match c.planner.plan waypoints c.params.limits with
  | .error _ => []
  | .ok plan => if waypoints.length < 2 then [] else plan.trajectory.commands c.converter options

/-- These actions lead from one controller to another, and this is what the chassis is told. -/
structure Leads (c : Controller) (actions : List Action) (d : Controller)
    (commands : List (Command Float)) : Prop where
  after : c.after actions = d
  told : told (c.history actions) = commands

/-- How a move can go that no other caller comes between: what it returns, the controller it leaves,
and what the chassis is told. The engine takes any number of steps before and after each thing that
the move does; the wait can end wherever the controller is settled. -/
inductive Moving (c : Controller) (waypoints : List (Waypoint Float)) (options : RunOptions) :
    Except ControlError Unit → Controller → List (Command Float) → Prop where
  | fails {error : PlanError Float} {n : Nat} {d : Controller} {commands : List (Command Float)}
      (fault : c.planner.plan waypoints c.params.limits = .error error)
      (leaves : Leads (c.withMoves (c.moves + 1)) (steps n) d commands) :
      Moving c waypoints options (.error (.notPlanned error)) d commands
  | passes {plan : Plan Float} {before beside n : Nat} {d e : Controller}
      {first later : List (Command Float)}
      (planned : c.planner.plan waypoints c.params.limits = .ok plan)
      (registers : Leads (c.withMoves (c.moves + 1)) (steps before ++
        .request (.register (moveId c.moves) (plan.trajectory.map Binary64.ofFloat)) ::
          steps beside) e first)
      (unknown : e.path? (moveId c.moves) = none)
      (leaves : Leads e (steps n) d later) :
      Moving c waypoints options (.ok ()) d (first ++ later)
  | drives {plan : Plan Float} {path : Path} {before beside looked waited settled n : Nat}
      {d e f : Controller} {first second later : List (Command Float)}
      (planned : c.planner.plan waypoints c.params.limits = .ok plan)
      (registers : Leads (c.withMoves (c.moves + 1)) (steps before ++
        .request (.register (moveId c.moves) (plan.trajectory.map Binary64.ofFloat)) ::
          steps beside) e first)
      (known : e.path? (moveId c.moves) = some path)
      (waits : Leads e (steps looked ++ .request (.setTarget ⟨moveId c.moves, options⟩) ::
        steps waited) f second)
      (settles : f.isSettled = true)
      (removes : Leads f
        (steps settled ++ .request (.remove (moveId c.moves)) :: steps n) d later) :
      Moving c waypoints options (.ok ()) d (first ++ second ++ later)

theorem Leads.append (h : Leads c actions d first) (g : Leads d later e second) :
    Leads c (actions ++ later) e (first ++ second) := by
  obtain ⟨rfl, rfl⟩ := h
  obtain ⟨rfl, rfl⟩ := g
  refine ⟨after_append, ?_⟩
  rw [history_append, told_append]

theorem Leads.request (r : Request) (h : Leads (c.serve r) later d first) :
    Leads c (.request r :: later) d first :=
  ⟨h.after, h.told⟩

theorem Leads.unique (h : Leads c actions d first) (g : Leads c actions e second) :
    d = e ∧ first = second :=
  ⟨h.after.symm.trans g.after, h.told.symm.trans g.told⟩

theorem Goes.leads {stop : Controller → Bool} {n : Nat} {outputs : List Output}
    (h : Goes stop c n outputs d) : Leads c (steps n) d (outputs.filterMap Output.command?) := by
  induction h with
  | stays c => exact ⟨rfl, rfl⟩
  | @step c next last n outputs later going first rest ih =>
    have hone : Leads c [.engine] next (outputs.filterMap Output.command?) := by
      refine ⟨congrArg Prod.fst first, ?_⟩
      rw [history, history, told_singleton, Moment.told, act, first]
    rw [List.filterMap_append]
    exact hone.append ih

/-- Before the last of its steps nothing stops an engine that goes on. -/
theorem Goes.going {stop : Controller → Bool} {n : Nat} {outputs : List Output}
    (h : Goes stop c n outputs d) {m : Nat} (hm : m < n) : stop (c.after (steps m)) = false := by
  induction h generalizing m with
  | stays c => exact absurd hm (Nat.not_lt_zero m)
  | @step c next last n outputs later going first rest ih =>
    cases m with
    | zero => exact going
    | succ m =>
      change stop (c.step.1.after (steps m)) = false
      rw [first]
      exact ih (Nat.lt_of_succ_lt_succ hm)

/-- The engine waits for work, and it would take up a target. -/
structure Idle (c : Controller) : Prop extends c.Rested where
  enabled : c.shared.disabled = false
  running : c.shared.shutDown = false

theorem Idle.ready (h : c.Idle) : c.Ready :=
  ⟨h.stage, h.pending, h.settled, h.handled, h.enabled, h.running⟩

theorem idle_of_isBlocked (h : c.Consistent) (hb : c.isBlocked = true)
    (hd : c.shared.disabled = false) (hs : c.shared.shutDown = false) : c.Idle :=
  ⟨rested_of_isBlocked h hs hb, hd, hs⟩

theorem Idle.leads_steps (h : c.Idle) (n : Nat) : Leads c (steps n) c [] := by
  refine ⟨h.after_steps h.running n, ?_⟩
  induction n with
  | zero => rfl
  | succ n ih =>
    change told (⟨c, .engine⟩ :: c.step.1.history (steps n)) = []
    rw [h.step h.running, told_cons, ih, Moment.told, act, h.step h.running]
    rfl

theorem Idle.register (h : c.Idle) (id : String) (path : Path) :
    (c.serve (.register id path)).Idle :=
  ⟨⟨h.stage, h.pending, h.settled, h.index, h.handled⟩, h.enabled, h.running⟩

theorem Idle.remove (h : c.Idle) (id : String) : (c.serve (.remove id)).Idle :=
  ⟨⟨h.stage, h.pending, h.settled, h.index, h.handled⟩, h.enabled, h.running⟩

/-- A request that leaves the engine without work does so whatever steps it takes around it. -/
theorem Idle.leads_request (h : c.Idle) {r : Request} (hr : (c.serve r).Idle) (before after : Nat) :
    Leads c (steps before ++ .request r :: steps after) (c.serve r) [] :=
  (h.leads_steps before).append (.request r (hr.leads_steps after))

/-- An idle controller drives a path that is set as its target, and is idle again when the wait for
that ends. -/
theorem Idle.leads_target (h : c.Idle) {id : String} {path : Path} (hp : c.path? id = some path)
    {options : RunOptions} {before after : Nat} {commands : List (Command Float)}
    (hleads : Leads c (steps before ++ .request (.setTarget ⟨id, options⟩) :: steps after) d
      commands) (hsettled : d.isSettled = true) :
    d.Idle ∧ d.shared.registry = c.shared.registry ∧
      commands = (Run.mk ⟨id, options⟩ path c.shared.cancelRequests).commands c.converter ++
        [.stop] := by
  let asked : Controller := (c.setTarget id options).1
  have hasked : Leads c (steps before ++ .request (.setTarget ⟨id, options⟩) :: steps after)
      (asked.after (steps after)) (told (asked.history (steps after))) :=
    (h.leads_steps before).append (.request _ ⟨rfl, rfl⟩)
  obtain ⟨rfl, rfl⟩ := hleads.unique hasked
  obtain ⟨outputs, hgoes, hcommands⟩ := goes_ready h.ready hp options
  let driven : Controller := { c with
    shared := { c.shared with target := some ⟨id, options⟩ }.rest
    stage := .idle
    chassis := outputs.foldl receive c.chassis }
  have hidle : driven.Idle := ⟨⟨rfl, h.pending, rfl, rfl, rfl⟩, h.enabled, h.running⟩
  -- The wait cannot end before the path does, and after that nothing happens.
  have hlong : 4 * path.size + 5 ≤ after := by
    by_contra hshort
    rw [hgoes.going (Nat.lt_of_not_le hshort)] at hsettled
    cases hsettled
  obtain ⟨more, rfl⟩ := Nat.exists_eq_add_of_le hlong
  have hwhole : Leads asked (steps (4 * path.size + 5 + more)) driven
      (outputs.filterMap Output.command? ++ []) := by
    rw [steps, List.replicate_add]
    exact hgoes.leads.append (hidle.leads_steps more)
  rw [hwhole.after, hwhole.told, List.append_nil, hcommands]
  exact ⟨hidle, rfl, rfl⟩

variable {waypoints : List (Waypoint Float)} {options : RunOptions} {plan : Plan Float}
  {result : Except ControlError Unit} {commands : List (Command Float)}

theorem Idle.withMoves (h : c.Idle) (moves : Nat) : (c.withMoves moves).Idle :=
  ⟨⟨h.stage, h.pending, h.settled, h.index, h.handled⟩, h.enabled, h.running⟩

theorem Moving.of_error (h : c.Idle) {error : PlanError Float}
    (hplan : c.planner.plan waypoints c.params.limits = .error error)
    (hmoving : Moving c waypoints options result d commands) :
    result = .error (.notPlanned error) ∧ d = c.withMoves (c.moves + 1) ∧ commands = [] := by
  cases hmoving with
  | fails fault leaves =>
    obtain ⟨rfl, rfl⟩ := leaves.unique ((h.withMoves _).leads_steps _)
    obtain rfl := Except.error.inj (hplan.symm.trans fault)
    exact ⟨rfl, rfl, rfl⟩
  | passes planned | drives planned => cases hplan.symm.trans planned

/-- What the chassis is told where a path is driven that may be missing. -/
def driven (converter : Converter Float) (options : RunOptions) : Option Path → List (Command Float)
  | some path => (path.map Binary64.toFloat).commands converter options
  | none => []

/-- A run that goes to its end tells the chassis what is to be driven. -/
theorem commands_run_stop (run : Run) (converter : Converter Float) :
    run.commands converter ++ [.stop] =
      driven converter run.target.options (some run.path) := by
  rw [driven, Trajectory.commands, Trajectory.map, Array.toList_map, List.map_map]
  rfl

/-- A move with a plan drives what is then registered under its id, and removes it. -/
theorem Moving.of_ok (h : c.Idle) (hplan : c.planner.plan waypoints c.params.limits = .ok plan)
    (hmoving : Moving c waypoints options result d commands) :
    result = .ok () ∧ d.Idle ∧
      d.shared.registry = c.shared.registry.erase (moveId c.moves) ∧
      commands = driven c.converter options ((c.shared.registry.insert (moveId c.moves)
        (plan.trajectory.map Binary64.ofFloat)).get? (moveId c.moves)) := by
  have hcounted := h.withMoves (c.moves + 1)
  have hregistered := hcounted.register (moveId c.moves) (plan.trajectory.map Binary64.ofFloat)
  cases hmoving with
  | fails fault => cases hplan.symm.trans fault
  -- Nothing was registered, and nobody has a path under the id.
  | passes planned registers unknown leaves =>
    obtain rfl := Except.ok.inj (hplan.symm.trans planned)
    obtain ⟨rfl, rfl⟩ := registers.unique (hcounted.leads_request hregistered _ _)
    obtain ⟨rfl, rfl⟩ := leaves.unique (hregistered.leads_steps _)
    replace unknown : (c.shared.registry.insert (moveId c.moves)
      (plan.trajectory.map Binary64.ofFloat)).get? (moveId c.moves) = none := unknown
    refine ⟨rfl, hregistered, ?_, by rw [unknown]; rfl⟩
    rw [← Registry.erase_insert]
    exact (Registry.erase_of_not_mem (Registry.get?_eq_none_iff.1 unknown)).symm
  | drives planned registers known waits settles removes =>
    obtain rfl := Except.ok.inj (hplan.symm.trans planned)
    obtain ⟨rfl, rfl⟩ := registers.unique (hcounted.leads_request hregistered _ _)
    obtain ⟨hidle, hregistry, rfl⟩ := hregistered.leads_target known waits settles
    obtain ⟨rfl, rfl⟩ := removes.unique (hidle.leads_request (hidle.remove _) _ _)
    replace known : (c.shared.registry.insert (moveId c.moves)
      (plan.trajectory.map Binary64.ofFloat)).get? (moveId c.moves) = some _ := known
    refine ⟨rfl, hidle.remove _, ?_, ?_⟩
    · change Registry.erase _ _ = _
      rw [hregistry]
      exact Registry.erase_insert
    · rw [known, List.nil_append, List.append_nil, commands_run_stop]
      rfl

theorem driven_planned (converter : Converter Float) (options : RunOptions)
    (t : Trajectory Float) :
    driven converter options (some (t.map Binary64.ofFloat)) = t.commands converter options := by
  simp [driven, Trajectory.map, Trajectory.commands, Function.comp_def]

theorem isEmpty_planned_empty : (Plan.empty.trajectory.map Binary64.ofFloat).isEmpty = true := by
  simp [Trajectory.isEmpty, Trajectory.map, Plan.trajectory, Trajectory.empty]

/-- Where a plan is to be driven, or no path is there under the id of a move, a move drives what it
is asked to. -/
theorem driven_insert (hplan : c.planner.plan waypoints c.params.limits = .ok plan)
    (hnew : 2 ≤ waypoints.length ∨ moveId c.moves ∉ c.paths) :
    driven c.converter options ((c.shared.registry.insert (moveId c.moves)
      (plan.trajectory.map Binary64.ofFloat)).get? (moveId c.moves)) =
        c.moveCommands waypoints options := by
  simp only [moveCommands, hplan]
  rcases Planner.plan_cases hplan with ⟨hfew, rfl⟩ | ⟨hmany, length, t, rfl, hsome, -⟩
  · rw [if_pos hfew, Registry.insert_of_isEmpty isEmpty_planned_empty,
      Registry.get?_eq_none_iff.2 (hnew.resolve_left (Nat.not_le.2 hfew))]
    rfl
  · have hkept : (t.map Binary64.ofFloat).isEmpty = false := by
      rw [Trajectory.isEmpty, Array.isEmpty_eq_false_iff, ← Array.size_pos_iff]
      change 0 < (t.map Binary64.ofFloat).size
      rwa [Trajectory.size_map]
    rw [if_neg (Nat.not_lt.2 hmany)]
    change driven _ _ (Registry.get? (Registry.insert _ _ (t.map Binary64.ofFloat)) _) = _
    rw [Registry.get?_insert hkept, if_pos rfl, driven_planned]
    rfl

/-- What a move does once its path is registered. -/
theorem moveTo_of_generate {registered : Controller} {notices : List Notice}
    (h : (c.withMoves (c.moves + 1)).generate waypoints (moveId c.moves) c.params.limits =
      (.ok (), registered, notices)) (options : RunOptions) :
    ∃ said, c.moveTo waypoints options =
    if (registered.path? (moveId c.moves)).isNone then (.ok (), registered, said, [])
    else
      let waited := (registered.setTarget (moveId c.moves) options).1.waitUntilSettled
      (.ok (), waited.1.serve (.remove (moveId c.moves)), said, waited.2) := by
  unfold withMoves at h
  simp only [moveTo, h]
  split
  · exact ⟨_, rfl⟩
  · exact ⟨_, rfl⟩

/-- A move of the controller is one of those that can happen. -/
theorem moving_moveTo (h : c.Consistent) (hs : c.shared.shutDown = false)
    (waypoints : List (Waypoint Float)) (options : RunOptions) :
    Moving c waypoints options (c.moveTo waypoints options).1 (c.moveTo waypoints options).2.1
      ((c.moveTo waypoints options).2.2.2.filterMap Output.command?) := by
  let counted := c.withMoves (c.moves + 1)
  cases hplan : c.planner.plan waypoints c.params.limits with
  | error error =>
    have hcounted : counted.planner.plan waypoints c.params.limits = .error error := hplan
    have hmove : c.moveTo waypoints options =
        (.error (.notPlanned error), counted, [.notGenerated (moveId c.moves) error], []) := by
      unfold counted withMoves at hcounted ⊢
      simp only [moveTo, generate, hcounted]
    rw [hmove]
    exact .fails (n := 0) hplan ⟨rfl, rfl⟩
  | ok plan =>
    let path := plan.trajectory.map Binary64.ofFloat
    let registered := counted.serve (.register (moveId c.moves) path)
    have hregisters : Leads counted
        (steps 0 ++ .request (.register (moveId c.moves) path) :: steps 0) registered [] :=
      ⟨rfl, rfl⟩
    have hcounted : counted.planner.plan waypoints c.params.limits = .ok plan := hplan
    have hgenerate : ∃ notices, counted.generate waypoints (moveId c.moves) c.params.limits =
        (.ok (), registered, notices) := by
      simp only [generate, hcounted, register]
      exact ⟨_, rfl⟩
    obtain ⟨notices, hgenerate⟩ := hgenerate
    obtain ⟨said, hmove⟩ := moveTo_of_generate hgenerate options
    rw [hmove]
    cases hfound : registered.path? (moveId c.moves) with
    | none => exact .passes (n := 0) hplan hregisters hfound ⟨rfl, rfl⟩
    | some found =>
      let asked := (registered.setTarget (moveId c.moves) options).1
      have hasked : asked.Consistent := by
        have hmoves : counted.Consistent :=
          ⟨h.disabled, h.still, h.index, h.within, h.closing⟩
        exact (hmoves.serve _).serve _
      obtain ⟨n, hwaits, hsaid, hsettled⟩ := stepUntil_ends isSettled hasked hs
        fun d hd _ => hd.isSettled
      have hwhole : Leads registered
          (steps 0 ++ .request (.setTarget ⟨moveId c.moves, options⟩) :: steps n)
          asked.waitUntilSettled.1
          (asked.waitUntilSettled.2.filterMap Output.command?) :=
        .request _ ⟨hwaits.symm, hsaid.symm⟩
      -- The wait takes the steps that `stepUntil_ends` found, and ends settled.
      have hends : asked.waitUntilSettled.1.isSettled = true := by
        rw [waitUntilSettled, hwaits]
        exact hsettled
      have hremoves : Leads asked.waitUntilSettled.1
          (steps 0 ++ .request (.remove (moveId c.moves)) :: steps 0)
          (asked.waitUntilSettled.1.serve (.remove (moveId c.moves))) [] := ⟨rfl, rfl⟩
      have hmoving := Moving.drives hplan hregisters hfound hwhole hends hremoves
      rw [List.nil_append, List.append_nil] at hmoving
      exact hmoving

variable (params : Params Float) (converter : Converter Float) (chassis : Drivetrain)

/-- What a move does to an idle controller, whatever paths its callers registered and however many
moves came before, when no other caller comes between. It returns what its planning comes to, and
the controller is idle again. It leaves the registry as it was and drives its own plan, or nothing
where there is none to drive, exactly if no path is registered under the id of the move or the
planning fails. Otherwise it is that path that the registry loses, and with fewer than two waypoints
that path is driven. -/
theorem move_leaves_no_trace_iff (actions : List Action) (moves : Nat)
    (waypoints : List (Waypoint Float)) (options : RunOptions) :
    let c := ((fresh params converter chassis).after actions).withMoves moves
    let planned := c.planner.plan waypoints c.params.limits
    c.isBlocked = true → c.shared.disabled = false → c.shared.shutDown = false →
      Moving c waypoints options (c.moveTo waypoints options).1 (c.moveTo waypoints options).2.1
        ((c.moveTo waypoints options).2.2.2.filterMap Output.command?) ∧
      ∀ result d commands, Moving c waypoints options result d commands →
        result = (planned.map fun _ => ()).mapError .notPlanned ∧
        d.isBlocked = true ∧ d.shared.disabled = false ∧
        ((d.shared.registry = c.shared.registry ∧ commands = c.moveCommands waypoints options) ↔
          moveId c.moves ∉ c.paths ∨ ∃ error, planned = .error error) ∧
        (d.shared.registry = c.shared.registry ∨
          d.shared.registry = c.shared.registry.erase (moveId c.moves)) ∧
        (commands = c.moveCommands waypoints options ∨ waypoints.length < 2 ∧
          commands = driven c.converter options (c.path? (moveId c.moves))) := by
  intro c planned hb hd hs
  have hc : c.Consistent := by
    have hmoves := (consistent_fresh params converter chassis).after actions
    exact ⟨hmoves.disabled, hmoves.still, hmoves.index, hmoves.within, hmoves.closing⟩
  have hidle := idle_of_isBlocked hc hb hd hs
  refine ⟨moving_moveTo hc hs waypoints options, fun result e commands hmoving => ?_⟩
  cases hplan : c.planner.plan waypoints c.params.limits with
  | error error =>
    have hplanned : planned = .error error := hplan
    obtain ⟨rfl, rfl, rfl⟩ := hmoving.of_error hidle hplan
    have hcommands : [] = c.moveCommands waypoints options := by rw [moveCommands, hplan]
    refine ⟨by rw [hplanned]; rfl, hb, hd, iff_of_true ⟨rfl, hcommands⟩ (Or.inr ⟨error, hplanned⟩),
      Or.inl rfl, Or.inl hcommands⟩
  | ok plan =>
    have hplanned : planned = .ok plan := hplan
    obtain ⟨rfl, hafter, hregistry, rfl⟩ := hmoving.of_ok hidle hplan
    refine ⟨by rw [hplanned]; rfl, hafter.toRested.isBlocked hafter.running, hafter.enabled, ?_,
      Or.inr hregistry, ?_⟩
    · constructor
      · rintro ⟨hsame, -⟩
        exact Or.inl (Registry.erase_eq_self_iff.1 (hregistry.symm.trans hsame))
      · rintro (hnew | ⟨error, herror⟩)
        · exact ⟨hregistry.trans (Registry.erase_of_not_mem hnew),
            driven_insert hplan (Or.inr hnew)⟩
        · cases hplanned.symm.trans herror
    · rcases Planner.plan_cases hplan with ⟨hfew, rfl⟩ | ⟨hmany, -⟩
      · rw [Registry.insert_of_isEmpty isEmpty_planned_empty]
        exact Or.inr ⟨hfew, rfl⟩
      · exact Or.inl (driven_insert hplan (Or.inl hmany))

def firstMoveTaken : Controller :=
  (fresh (.ofGeometry ⟨1.0, 1.0, 1.0⟩ ⟨1.0, 1.0⟩ 1.0) ⟨.linear, 1.0, 1.0, 1.0⟩ (.ofLimit 1.0)).after
    [.request (.register (moveId 0) twoSamples)]

/-- The second move leaves that path alone and drives its own. -/
theorem second_move_leaves_no_trace :
    let c := firstMoveTaken.withMoves 1
    let ahead : List (Waypoint Float) := [⟨0.0, 0.0, 0.0⟩, ⟨1.0, 0.0, 0.0⟩]
    let move := c.moveTo ahead .forward
    c.isBlocked = true ∧ c.shared.disabled = false ∧ c.shared.shutDown = false ∧
      moveId c.moves ∉ c.paths ∧ move.2.1.shared.registry = c.shared.registry ∧
      move.2.2.2.filterMap Output.command? = c.moveCommands ahead .forward := by
  intro c ahead move
  have hnew : moveId c.moves ∉ c.paths := by decide
  obtain ⟨hmoving, hall⟩ := move_leaves_no_trace_iff (.ofGeometry ⟨1.0, 1.0, 1.0⟩ ⟨1.0, 1.0⟩ 1.0)
    ⟨.linear, 1.0, 1.0, 1.0⟩ (.ofLimit 1.0) [.request (.register (moveId 0) twoSamples)] 1 ahead
    .forward rfl rfl rfl
  obtain ⟨-, -, -, htrace, -⟩ := hall _ _ _ hmoving
  exact ⟨rfl, rfl, rfl, hnew, htrace.2 (Or.inl hnew)⟩

/-- The first move is asked to drive nothing, drives that path and removes it. -/
theorem first_move_takes_callers_path :
    let c := firstMoveTaken
    let move := c.moveTo [] .forward
    c.isBlocked = true ∧ c.shared.disabled = false ∧ c.shared.shutDown = false ∧
      c.moveCommands [] .forward = [] ∧ (move.2.2.2.filterMap Output.command?).length = 3 ∧
      c.paths = [moveId 0] ∧ move.2.1.paths = [] :=
  ⟨rfl, rfl, rfl, by decide +kernel, by decide +kernel, by decide +kernel, by decide +kernel⟩

end Controller

end SkidSteer
