import SkidSteer.Proofs.Control.Turns

namespace SkidSteer

namespace Controller

variable {c d e : Controller} {stop : Controller → Bool} {steps more : Nat}
  {outputs later : List Output}

/-- The engine takes some steps and says this, and `stop` holds before none of them. -/
inductive Goes (stop : Controller → Bool) : Controller → Nat → List Output → Controller → Prop where
  | stays (c : Controller) : Goes stop c 0 [] c
  | step {c d e : Controller} {steps : Nat} {outputs later : List Output} (going : stop c = false)
      (first : c.step = (d, outputs)) (rest : Goes stop d steps later e) :
      Goes stop c (steps + 1) (outputs ++ later) e

theorem Goes.one (hgoing : stop c = false) (hfirst : c.step = (d, outputs)) :
    Goes stop c 1 outputs d := by
  have h := Goes.step hgoing hfirst (.stays d)
  rwa [List.append_nil] at h

theorem Goes.trans (h : Goes stop c steps outputs d) (g : Goes stop d more later e) :
    Goes stop c (steps + more) (outputs ++ later) e := by
  induction h with
  | stays => simpa using g
  | step going first rest ih =>
    rw [List.append_assoc, Nat.add_right_comm]
    exact .step going first (ih g)

theorem Goes.stepUntil (h : Goes stop c steps outputs d) (hstop : stop d = true) {most : Nat}
    (hmost : steps ≤ most) : stepUntil stop most c = (d, outputs) := by
  induction h generalizing most with
  | stays c => cases most <;> simp [Controller.stepUntil, hstop]
  | step going first rest ih =>
    obtain ⟨most, rfl⟩ : ∃ left, most = left + 1 := ⟨most - 1, by omega⟩
    have hrest := ih hstop (by omega : _ ≤ most)
    simp [Controller.stepUntil, going, first, hrest]

/-- A step of the engine, from what it does in its stage. -/
theorem step_of_stage (h : c.stage.step c.converter c.shared = (d.shared, d.stage, outputs))
    (hsame : d = { c with
      shared := d.shared
      stage := d.stage
      chassis := outputs.foldl receive c.chassis }) : c.step = (d, outputs) := by
  rw [step, h, hsame]

/-- The engine stands, and nothing is asked of it. -/
structure Ready (c : Controller) : Prop where
  stage : c.stage = .idle
  pending : c.shared.pending = false
  settled : c.shared.settled = true
  handled : c.shared.cancelsHandled = c.shared.cancelRequests
  enabled : c.shared.disabled = false
  running : c.shared.shutDown = false

/-- A run goes on that nothing is in the way of. -/
structure Free (run : Run) (s : Shared) : Prop where
  pending : s.pending = false
  settled : s.settled = false
  ticket : s.cancelRequests = run.ticket
  enabled : s.disabled = false
  running : s.shutDown = false

theorem Free.isSettled {run : Run} (h : Free run c.shared) : c.isSettled = false := by
  simp [Controller.isSettled, Shared.isSettled, h.enabled, h.settled]

theorem filterMap_map_command (commands : List (Command Float)) :
    (commands.map Output.command).filterMap Output.command? = commands := by
  have hsame : Output.command? ∘ Output.command = some := rfl
  rw [List.filterMap_map, hsame, List.filterMap_some]

theorem Free.show {run : Run} {s : Shared} (h : Free run s) (index : Nat) :
    Free run { s with runningIndex := some index } :=
  ⟨h.pending, h.settled, h.ticket, h.enabled, h.running⟩

/-- One sample is sent in four steps. -/
theorem goes_sample (stop : Controller → Bool) {run : Run} {index : Nat}
    (hstage : c.stage = .sample run index)
    (hindex : index < run.path.size) (hfree : Free run c.shared)
    (hgoing : ∀ d : Controller, Free run d.shared → d.stage.at? = some (run, index) →
      stop d = false) :
    ∃ command, (run.commands c.converter)[index]? = some command ∧
      Goes stop c 4 [.command command]
        { c with
          shared := { c.shared with runningIndex := some index }
          stage := .sample run (index + 1)
          chassis := c.chassis.apply command } := by
  have hsample : run.path.samples[index]? = some run.path.samples[index] :=
    Array.getElem?_eq_getElem hindex
  let command := run.command c.converter (run.path.samples[index].map Binary64.toFloat)
  let looked := { c with stage := .enabled run index }
  let asked := { c with stage := .requests run index }
  let shown := { c.shared with runningIndex := some index }
  let sending := { c with shared := shown, stage := .sending run index }
  have hlook : c.step = (looked, []) := by
    refine step_of_stage ?_ rfl
    rw [hstage, Stage.step, if_neg (Nat.not_le.2 hindex), if_neg (by simp [hfree.running])]
  have henabled : looked.step = (asked, []) := by
    refine step_of_stage ?_ rfl
    rw [Stage.step, if_neg (by simp [looked, hfree.enabled])]
  have hrequests : asked.step = (sending, []) := by
    refine step_of_stage ?_ rfl
    rw [Stage.step, if_neg (by simp [asked, hfree.ticket]), if_neg (by simp [asked, hfree.pending])]
  have hsends : sending.step = ({ c with
      shared := shown
      stage := .sample run (index + 1)
      chassis := c.chassis.apply command }, [.command command]) := by
    refine step_of_stage ?_ rfl
    simp only [sending, Stage.step, Path.sample?, Trajectory.get?, hsample, Option.map_some]
    rfl
  refine ⟨command, ?_, ?_⟩
  · simp [Run.commands, hsample, command]
  · exact .step (hgoing c hfree (by rw [hstage]; rfl)) hlook <|
      .step (hgoing looked hfree rfl) henabled <| .step (hgoing asked hfree rfl) hrequests <|
        .one (hgoing sending (hfree.show index) rfl) hsends

/-- A run that nothing is in the way of goes on from its first sample to any other. -/
theorem goes_to_sample (stop : Controller → Bool) {run : Run} (hstage : c.stage = .sample run 0)
    (hfree : Free run c.shared)
    {count : Nat} (hcount : count ≤ run.path.size)
    (hgoing : ∀ d : Controller, Free run d.shared → ∀ index < count,
      d.stage.at? = some (run, index) → stop d = false) :
    ∃ s, Free run s ∧ s.rest = c.shared.rest ∧
      Goes stop c (4 * count) (((run.commands c.converter).take count).map .command)
        { c with
          shared := s
          stage := .sample run count
          chassis := ((run.commands c.converter).take count).foldl Drivetrain.apply c.chassis } := by
  induction count with
  | zero => exact ⟨c.shared, hfree, rfl, by rw [← hstage]; exact .stays c⟩
  | succ count ih =>
    obtain ⟨s, hs, hrest, hgoes⟩ :=
      ih (Nat.le_of_succ_le hcount) fun d hd index hi => hgoing d hd index (Nat.lt_succ_of_lt hi)
    let sent := (run.commands c.converter).take count
    obtain ⟨command, hcommand, hnext⟩ := goes_sample stop (c := { c with
        shared := s
        stage := .sample run count
        chassis := sent.foldl Drivetrain.apply c.chassis })
      rfl hcount hs fun d hd => hgoing d hd count (Nat.lt_succ_self count)
    have htake : (run.commands c.converter).take (count + 1) = sent ++ [command] := by
      rw [List.take_add_one, hcommand]
      rfl
    refine ⟨_, hs.show count, hrest, ?_⟩
    rw [htake, List.map_append, List.foldl_append]
    exact hgoes.trans hnext

/-- After its last sample a run ends with a stop. -/
theorem goes_past_last {run : Run} (hstage : c.stage = .sample run run.path.size)
    (hfree : Free run c.shared) :
    Goes isSettled c 3 [.notice (.ended run.target.id .complete), .command .stop]
      { c with
        shared := c.shared.rest
        stage := .idle
        chassis := c.chassis.apply .stop } := by
  let ending := { c with stage := .ending run .complete }
  let resting := { c with stage := .resting, chassis := c.chassis.apply .stop }
  have hends : c.step = (ending, []) := by
    refine step_of_stage ?_ rfl
    rw [hstage, Stage.step, if_pos (Nat.le_refl _)]
  have htold : ending.step =
      (resting, [.notice (.ended run.target.id .complete), .command .stop]) :=
    step_of_stage rfl rfl
  exact .step hfree.isSettled hends <| .step (c := ending) hfree.isSettled htold <|
    .one (c := resting) hfree.isSettled (step_of_stage rfl rfl)

theorem goes_to_end {run : Run} (hstage : c.stage = .sample run 0) (hfree : Free run c.shared) :
    Goes isSettled c (4 * run.path.size + 3)
      ((run.commands c.converter).map .command ++
        [.notice (.ended run.target.id .complete), .command .stop])
      { c with
        shared := c.shared.rest
        stage := .idle
        chassis := ((run.commands c.converter).foldl Drivetrain.apply c.chassis).apply .stop } := by
  obtain ⟨s, hs, hrest, hgoes⟩ := goes_to_sample isSettled hstage hfree
    (Nat.le_refl _) fun d hd _ _ _ => hd.isSettled
  have hall : (run.commands c.converter).take run.path.size = run.commands c.converter :=
    List.take_of_length_le (by simp [Run.commands, Trajectory.size])
  rw [hall] at hgoes
  have hend := hgoes.trans (goes_past_last rfl hs)
  rwa [hrest] at hend

/-- A path that is set as the target of an engine that stands is taken up. -/
theorem goes_to_start (stop : Controller → Bool) (h : c.Ready) {id : String} {path : Path}
    (hp : c.path? id = some path)
    (options : RunOptions)
    (hgoing : ∀ d : Controller, d.isSettled = false →
      (d.stage = .idle ∨ ∃ run, d.stage = .starting run) → stop d = false) :
    ∃ s, Free ⟨⟨id, options⟩, path, c.shared.cancelRequests⟩ s ∧
      s.rest = { c.shared with target := some ⟨id, options⟩ }.rest ∧
      Goes stop (c.setTarget id options).1 2 [.notice (.starting id path.size options)]
        { c with
          shared := s
          stage := .sample ⟨⟨id, options⟩, path, c.shared.cancelRequests⟩ 0 } := by
  let run : Run := ⟨⟨id, options⟩, path, c.shared.cancelRequests⟩
  have hknown : c.shared.registry.contains id = true := by
    rw [Registry.contains, show c.shared.registry.get? id = some path from hp]
    rfl
  let wanting : Shared := { c.shared with target := some ⟨id, options⟩, pending := true }
  let asked : Controller := { c with shared := wanting }
  have hasked : (c.setTarget id options).1 = asked := by
    simp [setTarget, serve, Shared.serve, Shared.setTarget, Shared.accepts, hknown, h.enabled,
      asked, wanting]
  let taken : Controller := { c with shared := wanting.rest.begin, stage := .starting run }
  have htakes : asked.step = (taken, []) := by
    refine step_of_stage ?_ rfl
    have hwanted : wanting.wanted = some (⟨id, options⟩, path) := Shared.wanted_eq_some.2 ⟨rfl, hp⟩
    change c.stage.step c.converter wanting = _
    rw [h.stage, Stage.step,
      Stage.idleStep_of_wanted (s := wanting) h.running rfl h.enabled hwanted, if_pos h.handled]
  have hstarts : taken.step = ({ taken with stage := .sample run 0 },
      [.notice (.starting id path.size options)]) := step_of_stage rfl rfl
  have hfree : Free run taken.shared := ⟨rfl, rfl, rfl, h.enabled, h.running⟩
  have hasks : asked.isSettled = false := by
    simp [isSettled, Shared.isSettled, asked, wanting, h.enabled]
  refine ⟨taken.shared, hfree, by simp [taken, Shared.rest, Shared.begin, wanting, h.pending], ?_⟩
  rw [hasked]
  exact .step (hgoing asked hasks (Or.inl h.stage)) htakes <|
    .one (hgoing taken hfree.isSettled (Or.inr ⟨run, rfl⟩)) hstarts

theorem goes_ready (h : c.Ready) {id : String} {path : Path} (hp : c.path? id = some path)
    (options : RunOptions) :
    ∃ outputs, Goes isSettled (c.setTarget id options).1 (4 * path.size + 5) outputs
        { c with
          shared := { c.shared with target := some ⟨id, options⟩ }.rest
          stage := .idle
          chassis := outputs.foldl receive c.chassis } ∧
      outputs.filterMap Output.command? =
        (Run.mk ⟨id, options⟩ path c.shared.cancelRequests).commands c.converter ++ [.stop] := by
  let run : Run := ⟨⟨id, options⟩, path, c.shared.cancelRequests⟩
  obtain ⟨s, hs, hrest, hstart⟩ := goes_to_start isSettled h hp options fun d hd _ => hd
  let outputs : List Output := [.notice (.starting id path.size options)] ++
    ((run.commands c.converter).map .command ++ [.notice (.ended id .complete), .command .stop])
  have hcommands : outputs.filterMap Output.command? = run.commands c.converter ++ [.stop] := by
    rw [List.filterMap_append, List.filterMap_append, filterMap_map_command]
    rfl
  have hchassis : ((run.commands c.converter).foldl Drivetrain.apply c.chassis).apply .stop =
      outputs.foldl receive c.chassis := by
    rw [Drivetrain.foldl_receive, hcommands, List.foldl_append]
    rfl
  refine ⟨outputs, ?_, hcommands⟩
  have hgoes := hstart.trans (goes_to_end rfl hs)
  rw [Nat.add_comm, hrest] at hgoes
  rw [← hchassis]
  exact hgoes

theorem stepsLeft_setTarget (h : c.Ready) {id : String} {path : Path} (hp : c.path? id = some path)
    (options : RunOptions) : (c.setTarget id options).1.stepsLeft = 4 * path.size + 20 := by
  have hwaiting : (c.setTarget id options).1.shared.wanted = some (⟨id, options⟩, path) :=
    Shared.wanted_eq_some.2 ⟨rfl, hp⟩
  have hidle : (c.setTarget id options).1.stage = .idle := h.stage
  simp only [stepsLeft, Stage.stepsLeft, Stage.samplesLeft, hwaiting, hidle]

/-- A path that is set as the target of an engine that stands is driven to its end. -/
theorem drive_ready (h : c.Ready) {id : String} {path : Path} (hp : c.path? id = some path)
    (options : RunOptions) :
    ∃ outputs, (c.setTarget id options).1.waitUntilSettled =
        ({ c with
          shared := { c.shared with target := some ⟨id, options⟩ }.rest
          stage := .idle
          chassis := outputs.foldl receive c.chassis }, outputs) ∧
      outputs.filterMap Output.command? =
        (Run.mk ⟨id, options⟩ path c.shared.cancelRequests).commands c.converter ++ [.stop] := by
  obtain ⟨outputs, hgoes, hcommands⟩ := goes_ready h hp options
  refine ⟨outputs, hgoes.stepUntil ?_ ?_, hcommands⟩
  · simp [isSettled, Shared.isSettled, Shared.rest, h.pending]
  · rw [stepsLeft_setTarget h hp options]
    omega

/-- An engine that breaks off on its way to the end of a path has sent so many samples, and does not
stop the motors. -/
theorem breakOff_ready (h : c.Ready) {id : String} {path : Path} (hp : c.path? id = some path)
    (options : RunOptions) {count : Nat} (hcount : count + 1 ≤ path.size) :
    ((c.setTarget id options).1.breakOff (count + 1)).2.filterMap Output.command? =
      ((Run.mk ⟨id, options⟩ path c.shared.cancelRequests).commands c.converter).take
        (count + 1) := by
  let run : Run := ⟨⟨id, options⟩, path, c.shared.cancelRequests⟩
  let stop (d : Controller) : Bool := d.stage.hasSent (count + 1)
  have hearly : ∀ d : Controller, (d.stage = .idle ∨ ∃ run, d.stage = .starting run) →
      stop d = false := by
    rintro d (hd | ⟨run, hd⟩) <;> simp only [stop, hd, Stage.hasSent]
  have hgoing : ∀ d : Controller, ∀ index < count + 1, d.stage.at? = some (run, index) →
      stop d = false := by
    intro d index hi hat
    cases hd : d.stage with
    | sample other sent =>
      rw [hd] at hat
      cases hat
      simp only [stop, hd, Stage.hasSent, beq_eq_false_iff_ne]
      omega
    | _ => simp only [stop, hd, Stage.hasSent]
  obtain ⟨s, hs, -, hstart⟩ :=
    goes_to_start stop h hp options fun d _ hd => hearly d hd
  obtain ⟨_, -, -, hsends⟩ := goes_to_sample stop
    (c := { c with shared := s, stage := .sample run 0 }) rfl hs hcount
    fun d _ => hgoing d
  have hleft : 2 + 4 * (count + 1) ≤ (c.setTarget id options).1.stepsLeft := by
    rw [stepsLeft_setTarget h hp options]
    omega
  have hends := (hstart.trans hsends).stepUntil (by simp [stop, Stage.hasSent]) hleft
  rw [breakOff, hends, List.filterMap_append, filterMap_map_command]
  rfl

theorem close_ready (h : c.Ready) :
    c.close.2 = [.command .stop, .notice .engineStopped] := by
  have hleft : (c.serve .shutDown).stepsLeft =
      4 * Stage.samplesLeft (c.serve .shutDown).shared .idle + 17 + 3 := by
    simp [stepsLeft, Stage.stepsLeft, serve, h.stage]
  let asked := c.serve .shutDown
  let stopping : Controller := { asked with stage := .stopping }
  let finished : Controller := { asked with
    stage := .finished
    chassis := c.chassis.apply .stop }
  have hcloses : asked.step = (stopping, []) := by
    refine step_of_stage ?_ rfl
    change c.stage.step c.converter asked.shared = _
    rw [h.stage, Stage.step, Stage.idleStep_of_shutDown rfl]
  have hfinishes : stopping.step = (finished, [.command .stop, .notice .engineStopped]) :=
    step_of_stage rfl rfl
  have hgoing : asked.isBlocked = false := by
    change c.stage.isBlocked asked.shared = false
    simp [h.stage, Stage.isBlocked, asked, serve, Shared.serve]
  have hgoes : Goes isBlocked asked 2 [.command .stop, .notice .engineStopped] finished :=
    .step hgoing hcloses (.one rfl hfinishes)
  rw [close, hgoes.stepUntil rfl (by omega)]

end Controller

end SkidSteer
