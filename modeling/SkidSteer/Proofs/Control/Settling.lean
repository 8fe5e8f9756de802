import SkidSteer.Proofs.Control.Driving
import SkidSteer.Proofs.Control.Resetting
import SkidSteer.Proofs.Control.UnknownTarget
import SkidSteer.Proofs.Control.Closing

namespace SkidSteer

/-- The samples of the path of a pending target, as it is registered now. -/
def Shared.pendingSamples (s : Shared) : Nat :=
  match s.pending, s.wanted with
  | true, some (_, path) => path.size
  | _, _ => 0

namespace Shared

variable {s : Shared}

theorem pendingSamples_of_not_pending (h : s.pending = false) : s.pendingSamples = 0 := by
  rw [pendingSamples, h]

theorem pendingSamples_of_pending {target : Target} {path : Path} (hp : s.pending = true)
    (ht : s.target = some target) (hpath : s.registry.get? target.id = some path) :
    s.pendingSamples = path.size := by
  rw [pendingSamples, hp, wanted_eq_some.2 ⟨ht, hpath⟩]

end Shared

namespace Stage

def runSamples : Stage → Nat
  | .starting run => run.path.size
  | .sample run index | .enabled run index | .requests run index | .sending run index =>
    run.path.size - index
  | _ => 0

/-- The steps that the run in hand takes to its end, if nothing ends it before. -/
def runSteps : Stage → Nat
  | .starting run => 4 * run.path.size + 4
  | .sample run index => 4 * (run.path.size - index) + 3
  | .enabled run index => 4 * (run.path.size - index) + 2
  | .requests run index => 4 * (run.path.size - index) + 1
  | .sending run index => 4 * (run.path.size - index)
  | .ending _ _ => 2
  | .resting => 1
  | .idle | .stopping | .finished => 0

theorem runSteps_le (stage : Stage) : stage.runSteps ≤ 4 * stage.runSamples + 4 := by
  cases stage <;> simp only [runSteps, runSamples] <;> omega

theorem runSamples_add_le_samplesLeft (s : Shared) (stage : Stage) :
    stage.runSamples + s.pendingSamples ≤ stage.samplesLeft s := by
  have hwaiting : s.pendingSamples ≤ samplesLeft s .idle := by
    simp only [Shared.pendingSamples, samplesLeft]
    cases s.pending <;> cases s.wanted <;> simp
  cases stage <;> simp only [runSamples, samplesLeft] at hwaiting ⊢ <;> omega

/-- A look that finds something in the way is taken more than two steps before the end of a run. -/
theorem two_lt_runSteps {s : Shared} {stage : Stage} {run : Run} {index : Nat} {reason : RunEnd}
    (hat : stage.at? = some (run, index)) (hsize : index < run.path.size)
    (hfinds : stage.obstacle? s = some reason) : 2 < stage.runSteps := by
  cases stage with
  | sample | enabled | requests =>
    obtain ⟨rfl, rfl⟩ := Prod.mk.inj (Option.some.inj hat)
    simp only [runSteps]
    omega
  | starting | sending => cases hfinds
  | _ => cases hat

end Stage

namespace Controller

variable {c : Controller}

/-- The samples that are still sent when nobody asks anything, at most. -/
def samplesDue (c : Controller) : Nat := c.stage.runSamples + c.shared.pendingSamples

/-- The steps from here to where the engine looks for work and finds none. A pending target takes
five beside those for its samples: it is taken up, started and ended. -/
def stepsDue (c : Controller) : Nat :=
  c.stage.runSteps + if c.shared.pending then 4 * c.shared.pendingSamples + 5 else 0

/-- The steps after which the engine waits for work when nobody asks anything, at most. -/
def untilRest (c : Controller) : Nat := if c.isBlocked then 0 else c.stepsDue + 1

theorem untilRest_le (c : Controller) : c.untilRest ≤ 4 * c.samplesDue + 10 := by
  have hsteps := c.stage.runSteps_le
  unfold untilRest stepsDue samplesDue
  split
  · exact Nat.zero_le _
  · split <;> omega

theorem untilRest_le_stepsLeft (c : Controller) : c.untilRest ≤ c.stepsLeft := by
  have hbound := c.untilRest_le
  have hsamples : c.samplesDue ≤ c.stage.samplesLeft c.shared :=
    Stage.runSamples_add_le_samplesLeft c.shared c.stage
  rw [stepsLeft, Stage.stepsLeft]
  omega

def steps (n : Nat) : List Action := List.replicate n .engine

/-- A controller whose engine waits for work: it has no run in hand and shows none, no target is
pending, and all that was asked to be cancelled is. -/
structure Rested (c : Controller) : Prop where
  stage : c.stage = .idle
  pending : c.shared.pending = false
  settled : c.shared.settled = true
  index : c.shared.runningIndex = none
  handled : c.shared.cancelsHandled = c.shared.cancelRequests

theorem Rested.isSettled (h : c.Rested) : c.isSettled = true := by
  simp [Controller.isSettled, Shared.isSettled, h.settled, h.pending]

theorem rested_of_isBlocked (h : c.Consistent) (hs : c.shared.shutDown = false)
    (hb : c.isBlocked = true) : c.Rested := by
  unfold isBlocked Stage.isBlocked at hb
  split at hb
  · rename_i was
    simp only [Bool.and_eq_true, Bool.not_eq_true', beq_iff_eq, Bool.and_eq_false_imp,
      Bool.not_eq_false'] at hb
    obtain ⟨⟨⟨-, hhandled⟩, hnothing⟩, hsettled⟩ := hb
    refine ⟨was, ?_, hsettled, h.index hsettled, hhandled⟩
    cases hp : c.shared.pending with
    | false => rfl
    | true => exact hp.symm.trans (h.disabled (hnothing hp))
  · rename_i was
    rw [h.closing (Or.inr was)] at hs
    cases hs
  · cases hb

theorem Rested.isBlocked (h : c.Rested) (hs : c.shared.shutDown = false) : c.isBlocked = true := by
  simp [Controller.isBlocked, h.stage, Stage.isBlocked, hs, h.handled, h.pending, h.settled]

theorem Rested.step (h : c.Rested) (hs : c.shared.shutDown = false) : c.step = (c, []) := by
  refine step_of_stage ?_ rfl
  simp [h.stage, Stage.step, Stage.idleStep, hs, h.handled, h.pending, h.settled]

/-- Where the engine waits for work its steps change nothing. -/
theorem Rested.after_steps (h : c.Rested) (hs : c.shared.shutDown = false) (n : Nat) :
    c.after (steps n) = c := by
  induction n with
  | zero => rfl
  | succ n ih =>
    change c.step.1.after (steps n) = c
    rw [h.step hs]
    exact ih

/-- A step leads to where the engine waits for work or brings it closer to that. -/
theorem stepsDue_step (h : c.Consistent) (hs : c.shared.shutDown = false) :
    c.step.1.isBlocked = true ∨ c.step.1.stepsDue < c.stepsDue := by
  have hw := h.within
  have hclosing := h.closing
  cases h.turn with
  -- The engine is not shut down, so it is at none of these.
  | closes was shut => simp_all
  | finishes was | finished was => simp_all
  | stays was shut nothing shared now =>
    refine Or.inl (Rested.isBlocked ⟨now, ?_, ?_, ?_, ?_⟩ ?_) <;> simp [shared, Shared.rest, shut]
  -- What the pending target was counted for is now counted for the run.
  | takes run was _ pending enabled target path _ shared now =>
    have hsamples := Shared.pendingSamples_of_pending pending target path
    refine Or.inr ?_
    simp [stepsDue, was, now, shared, pending, hsamples, Stage.runSteps, Shared.begin]
  | halts run index reason was size finds shared now =>
    have hsteps := Stage.two_lt_runSteps was size finds
    refine Or.inr ?_
    rw [stepsDue, stepsDue, now, shared]
    exact Nat.add_lt_add_right hsteps _
  | readies run index was _ pending shared now =>
    refine Or.inr ?_
    simp [stepsDue, was, now, shared, pending, Stage.runSteps]
  | rests was shared now =>
    refine Or.inr ?_
    rw [stepsDue, stepsDue, was, now, shared]
    exact Nat.add_lt_add_right (by decide) _
  | sends run index command was of shared now =>
    have hindex : index < run.path.size := by rwa [was] at hw
    refine Or.inr ?_
    rw [stepsDue, stepsDue, was, now, shared]
    exact Nat.add_lt_add_right (by simp only [Stage.runSteps]; omega) _
  | starts run was shared now | completes run was shared now | passes run index was _ _ shared now
  | allows run index was _ shared now | yields run was shared now | ends run _ was _ shared now =>
    refine Or.inr ?_
    rw [stepsDue, stepsDue, was, now, shared]
    exact Nat.add_lt_add_right (by simp [Stage.runSteps]) _

/-- Each sample that is sent is one of those that are due. -/
theorem samplesDue_step (h : c.Consistent) :
    (Moment.mk c .engine).told.countP (!·.isStop) + c.step.1.samplesDue ≤ c.samplesDue := by
  have hw := h.within
  cases h.turn with
  | takes run was _ pending _ target path _ shared now said =>
    have hsamples := Shared.pendingSamples_of_pending pending target path
    have hstops : (Moment.mk c .engine).told.countP (!·.isStop) = 0 := by
      rw [said]
      split <;> rfl
    have hnone : c.shared.rest.begin.pendingSamples = 0 := Shared.pendingSamples_of_not_pending rfl
    simp only [samplesDue, was, now, shared, hsamples, hstops, hnone, Stage.runSamples]
    omega
  | stays was _ _ shared now said =>
    have hstops : (Moment.mk c .engine).told.countP (!·.isStop) = 0 := by
      rw [said]
      split <;> rfl
    have hnone : c.step.1.shared.pendingSamples = 0 :=
      Shared.pendingSamples_of_not_pending (by rw [shared])
    simp [samplesDue, was, now, hstops, hnone, Stage.runSamples]
  | sends run index command was of shared now said =>
    have hdrive : command.isStop = false := run.isStop_of_mem (List.mem_of_getElem? of)
    have hindex : index < run.path.size := by rwa [was] at hw
    simp only [samplesDue, was, now, shared, said, Stage.runSamples, List.countP_singleton, hdrive]
    simp only [Bool.not_false, if_true]
    omega
  | readies run index was _ _ shared now said | rests was shared now said =>
    have hsame : c.step.1.shared.pendingSamples = c.shared.pendingSamples := by rw [shared]; rfl
    simp [samplesDue, was, now, said, hsame, Stage.runSamples]
  | ends run reason was _ shared now said | finishes was shared now said =>
    simp [samplesDue, was, now, shared, said, Stage.runSamples, Command.isStop]
  | halts run index reason was _ _ shared now said | closes was _ shared now said
  | starts run was shared now said | completes run was shared now said
  | passes run index was _ _ shared now said | allows run index was _ shared now said
  | yields run was shared now said | finished was shared now said =>
    simp [samplesDue, was, now, shared, said, Stage.runSamples]

/-- An engine that is shut down has finished after eight steps. -/
theorem finished_of_steps (h : c.Consistent) (hs : c.shared.shutDown = true) {n : Nat}
    (hn : 8 ≤ n) : (c.after (steps n)).stage = .finished := by
  obtain ⟨hleft, -⟩ := shutDown_history h hs (steps n)
  have hmost : c.stage.untilFinished ≤ 8 := by
    cases c.stage <;> simp [Stage.untilFinished]
  rw [steps, countP_isStep_steps] at hleft
  exact Stage.finished_of_untilFinished (Nat.le_zero.1 (Nat.le_trans hleft (by omega)))

/-- However long the engine goes on, it sends the samples that are due and no others. -/
theorem samplesDue_steps (h : c.Consistent) (n : Nat) :
    (told (c.history (steps n))).countP (!·.isStop) + (c.after (steps n)).samplesDue ≤
      c.samplesDue := by
  induction n generalizing c with
  | zero => exact Nat.le_of_eq (Nat.zero_add _)
  | succ n ih =>
    have hstep := samplesDue_step h
    have hrest := ih h.step
    change (told (⟨c, .engine⟩ :: c.step.1.history (steps n))).countP (!·.isStop) +
      (c.step.1.after (steps n)).samplesDue ≤ c.samplesDue
    rw [told_cons, List.countP_append]
    omega

/-- An engine that goes on for long enough waits for work in the end. -/
theorem rested_of_untilRest (h : c.Consistent) (hs : c.shared.shutDown = false) (n : Nat)
    (hn : c.untilRest ≤ n) : (c.after (steps n)).Rested := by
  induction n generalizing c with
  | zero =>
    have hb : c.isBlocked = true := by
      unfold untilRest at hn
      split at hn
      · assumption
      · omega
    exact rested_of_isBlocked h hs hb
  | succ n ih =>
    cases hb : c.isBlocked with
    | true =>
      have hrest := rested_of_isBlocked h hs hb
      rwa [hrest.after_steps hs]
    | false =>
      have hfew : c.step.1.untilRest ≤ n := by
        rw [untilRest, if_neg (by simp [hb])] at hn
        unfold untilRest
        rcases stepsDue_step h hs with hblocked | hless
        · simp [hblocked]
        · split <;> omega
      exact ih h.step (h.turn.frame.2.2.2.1.trans hs) hfew

/-- A wait for something that holds at rest comes to an end where it holds. -/
theorem stepUntil_ends (stop : Controller → Bool) (h : c.Consistent)
    (hs : c.shared.shutDown = false)
    (hrest : ∀ d : Controller, d.Rested → d.shared.shutDown = false → stop d = true) :
    ∃ n, (stepUntil stop c.stepsLeft c).1 = c.after (steps n) ∧
      (stepUntil stop c.stepsLeft c).2.filterMap Output.command? = told (c.history (steps n)) ∧
      stop (c.after (steps n)) = true := by
  obtain ⟨n, -, he, hsaid, hstop⟩ := stepUntil_eq_after stop c.stepsLeft c
  refine ⟨n, he, hsaid, ?_⟩
  by_cases hlt : n < c.stepsLeft
  · exact hstop hlt
  · have hlong : c.untilRest ≤ n := Nat.le_trans c.untilRest_le_stepsLeft (Nat.le_of_not_lt hlt)
    exact hrest _ (rested_of_untilRest h hs n hlong) ((shutDown_steps h n).trans hs)

/-- Meanwhile no more samples are sent than are due. -/
theorem stepUntil_stops (stop : Controller → Bool) (h : c.Consistent)
    (hs : c.shared.shutDown = false)
    (hrest : ∀ d : Controller, d.Rested → d.shared.shutDown = false → stop d = true) :
    ∃ n, (stepUntil stop c.stepsLeft c).1 = c.after (steps n) ∧
      stop (c.after (steps n)) = true ∧
      ((stepUntil stop c.stepsLeft c).2.filterMap Output.command?).countP (!·.isStop) ≤
        c.samplesDue := by
  obtain ⟨n, he, hsaid, hstop⟩ := stepUntil_ends stop h hs hrest
  refine ⟨n, he, hstop, ?_⟩
  rw [hsaid]
  exact Nat.le_trans (Nat.le_add_right _ _) (samplesDue_steps h n)

/-- A wait of a controller that is settled already, as it is while disabled, takes no step. -/
theorem waitUntilSettled_of_isSettled (h : c.isSettled = true) : c.waitUntilSettled = (c, []) := by
  unfold waitUntilSettled
  cases c.stepsLeft with
  | zero => rfl
  | succ most => rw [stepUntil, if_pos h]

theorem isSettled_of_disabled (h : c.shared.disabled = true) : c.isSettled = true := by
  rw [isSettled, Shared.isSettled, h, Bool.true_or]

/-- The motors stand: both were asked for zero last, or nothing was asked of them. -/
def MotorsStopped (commands : List (Command Float)) (chassis : Drivetrain) : Prop :=
  commands = [] ∨
    commands.getLast? = some .stop ∧ chassis.left.last = 0.0 ∧ chassis.right.last = 0.0

theorem Rested.motorsStopped (h : c.Consistent) {actions : List Action}
    (hr : (c.after actions).Rested) :
    MotorsStopped (told (c.history actions)) (c.after actions).chassis := by
  have hstop := (rest_of_settled h hr.settled).2.2
  cases hlast : (told (c.history actions)).getLast? with
  | none => exact Or.inl (List.getLast?_eq_none_iff.1 hlast)
  | some command =>
    obtain ⟨rfl, hleft, hright⟩ := hstop command hlast
    exact Or.inr ⟨hlast, hleft, hright⟩

variable (params : Params Float) (converter : Converter Float) (chassis : Drivetrain)

/-- The controller always settles when nobody asks anything more, whatever came before. It sends no
more samples than the run in hand has left and the path of a pending target has, and within a number
of steps that they bound the engine waits for work, with the motors stopped, for good. So each wait
for that, or for the controller to be settled, comes to its end; one of a disabled controller ends
at once. A controller that is shut down finishes instead. -/
theorem controller_settles (actions : List Action) :
    let start := fresh params converter chassis
    let c := start.after actions
    (∀ n, (told (c.history (steps n))).countP (!·.isStop) ≤ c.samplesDue) ∧
    (c.shared.shutDown = false →
      c.untilRest ≤ 4 * c.samplesDue + 10 ∧
      (∀ n, c.untilRest ≤ n → let d := c.after (steps n)
        d.Rested ∧ d.isSettled = true ∧
        MotorsStopped (told (start.history (actions ++ steps n))) d.chassis ∧
        ∀ later, d.after (steps later) = d) ∧
      (∃ n, c.runToRest.1 = c.after (steps n) ∧ c.runToRest.1.Rested ∧
        (c.runToRest.2.filterMap Output.command?).countP (!·.isStop) ≤ c.samplesDue) ∧
      ∃ n, c.waitUntilSettled.1 = c.after (steps n) ∧ c.waitUntilSettled.1.isSettled = true ∧
        (c.waitUntilSettled.2.filterMap Output.command?).countP (!·.isStop) ≤ c.samplesDue) ∧
    (c.shared.disabled = true → c.isSettled = true ∧ c.waitUntilSettled = (c, [])) ∧
    (c.shared.shutDown = true → ∀ n, 8 ≤ n → (c.after (steps n)).stage = .finished) := by
  intro start c
  have hstart : start.Consistent := consistent_fresh params converter chassis
  have h : c.Consistent := hstart.after actions
  refine ⟨fun n => ?_, fun hs => ⟨c.untilRest_le, fun n hn => ?_, ?_, ?_⟩, fun hd => ?_,
    fun hs n hn => ?_⟩
  · exact Nat.le_trans (Nat.le_add_right _ _) (samplesDue_steps h n)
  · have hrest := rested_of_untilRest h hs n hn
    refine ⟨hrest, hrest.isSettled, ?_, hrest.after_steps ((shutDown_steps h n).trans hs)⟩
    have hafter : c.after (steps n) = start.after (actions ++ steps n) := after_append.symm
    rw [hafter] at hrest ⊢
    exact hrest.motorsStopped hstart
  · obtain ⟨n, he, hstop, hsent⟩ := stepUntil_stops isBlocked h hs
      fun d hd hs => hd.isBlocked hs
    refine ⟨n, he, ?_, hsent⟩
    rw [runToRest, he]
    exact rested_of_isBlocked (h.after _) ((shutDown_steps h n).trans hs) hstop
  · obtain ⟨n, he, hstop, hsent⟩ := stepUntil_stops isSettled h hs
      fun d hd _ => hd.isSettled
    exact ⟨n, he, by rw [waitUntilSettled, he]; exact hstop, hsent⟩
  · have hq := isSettled_of_disabled hd
    exact ⟨hq, waitUntilSettled_of_isSettled hq⟩
  · exact finished_of_steps h hs hn

end Controller

end SkidSteer
