import SkidSteer.Proofs.Control.Disabling

namespace SkidSteer

/-- Nothing in a step depends on the target when none is pending. -/
theorem Stage.step_target {s : Shared} (hp : s.pending = false) (converter : Converter Float)
    (stage : Stage) (target : Option Target) :
    stage.step converter { s with target } =
      ({ (stage.step converter s).1 with target }, (stage.step converter s).2) := by
  cases stage with
  | idle =>
    by_cases hc : s.cancelsHandled = s.cancelRequests <;> cases hs : s.shutDown <;>
      cases hq : s.settled <;> simp [step, idleStep, Shared.rest, hp, hc, hs, hq]
  | sample run index =>
    by_cases hi : run.path.size ≤ index <;> cases hs : s.shutDown <;> simp [step, hi, hs]
  | enabled run index => cases hd : s.disabled <;> simp [step, hd]
  | requests run index => by_cases hc : s.cancelRequests = run.ticket <;> simp [step, hc, hp]
  | ending run reason => by_cases hr : reason = .preempted <;> simp [step, hr]
  | _ => rfl

namespace Controller

variable {c d : Controller} {t : Target}

def withTarget (c : Controller) (target : Option Target) : Controller :=
  { c with shared := { c.shared with target } }

def withoutPending (c : Controller) : Controller :=
  { c with shared := { c.shared with pending := false } }

/-- These controllers differ in the target alone, and not even there while one is pending. -/
def SameButTarget (c d : Controller) : Prop :=
  ∃ target, d = c.withTarget target ∧ (c.shared.pending = true → target = c.shared.target)

theorem SameButTarget.refl (c : Controller) : SameButTarget c c :=
  ⟨c.shared.target, rfl, fun _ => rfl⟩

theorem SameButTarget.of_not_pending (hp : c.shared.pending = false) (target : Option Target) :
    SameButTarget c (c.withTarget target) :=
  ⟨target, rfl, fun hq => by rw [hp] at hq; cases hq⟩

theorem SameButTarget.serve (h : SameButTarget c d) (r : Request) :
    SameButTarget (c.serve r) (d.serve r) := by
  obtain ⟨target, rfl, ht⟩ := h
  cases r with
  | setTarget t => exact SameButTarget.refl _
  | cancel => exact SameButTarget.refl _
  | setDisabled disabled =>
    refine ⟨target, rfl, fun hq => ht ?_⟩
    change (c.shared.pending && !disabled) = true at hq
    exact (Bool.and_eq_true_iff.mp hq).1
  | register id path => exact ⟨target, rfl, ht⟩
  | remove id => exact ⟨target, rfl, ht⟩
  | enable => exact ⟨target, rfl, ht⟩
  | shutDown => exact ⟨target, rfl, ht⟩

theorem SameButTarget.step (hc : c.Consistent) (h : SameButTarget c d) :
    SameButTarget c.step.1 d.step.1 ∧ d.step.2 = c.step.2 := by
  obtain ⟨target, rfl, ht⟩ := h
  cases hp : c.shared.pending with
  | true =>
    rw [ht hp]
    exact ⟨SameButTarget.refl _, rfl⟩
  | false =>
    have hstep := Stage.step_target hp c.converter c.stage target
    have hnext : c.step.1.shared.pending = false := pending_act hc hp (a := .engine) rfl
    have he : (c.withTarget target).step = (c.step.1.withTarget target, c.step.2) := by
      simp only [Controller.step, withTarget, hstep]
    rw [he]
    exact ⟨SameButTarget.of_not_pending hnext target, rfl⟩

theorem SameButTarget.act (hc : c.Consistent) (h : SameButTarget c d) (a : Action) :
    SameButTarget (c.act a).1 (d.act a).1 ∧ (d.act a).2 = (c.act a).2 := by
  cases a with
  | request r => exact ⟨h.serve r, rfl⟩
  | engine => exact h.step hc

/-- Whatever comes later, the chassis is told the same, and the target stays all that differs. -/
theorem SameButTarget.history (hc : c.Consistent) (h : SameButTarget c d) (later : List Action) :
    SameButTarget (c.after later) (d.after later) ∧
      told (d.history later) = told (c.history later) := by
  induction later generalizing c d with
  | nil => exact ⟨h, rfl⟩
  | cons a rest ih =>
    obtain ⟨hnext, hsaid⟩ := h.act hc a
    obtain ⟨hafter, hrest⟩ := ih (hc.act a) hnext
    have htold : (Moment.mk d a).told = (Moment.mk c a).told :=
      congrArg (·.filterMap Output.command?) hsaid
    refine ⟨hafter, ?_⟩
    rw [Controller.history, Controller.history, told_cons, told_cons, htold, hrest]

/-- A target that is not accepted is shown, and leaves none pending. -/
theorem serve_setTarget_of_unknown (h : c.shared.registry.contains t.id = false) :
    c.serve (.setTarget t) = c.withoutPending.withTarget (some t) := by
  simp [serve, Shared.serve, Shared.setTarget, Shared.accepts, h, withTarget, withoutPending]

theorem withoutPending_eq_self (hp : c.shared.pending = false) : c.withoutPending = c := by
  cases c with
  | mk params converter shared stage chassis moves =>
    cases shared
    simp_all [withoutPending]

theorem Consistent.withoutPending (h : c.Consistent) : c.withoutPending.Consistent :=
  ⟨fun _ => rfl, h.still, h.index, h.within, h.closing⟩

theorem countP_isStep_steps (c : Controller) (n : Nat) :
    (c.history (List.replicate n .engine)).countP Moment.isStep = n := by
  induction n generalizing c with
  | zero => rfl
  | succ n ih =>
    rw [List.replicate_succ, history, List.countP_cons_of_pos rfl, ih]

theorem shutDown_steps (h : c.Consistent) (n : Nat) :
    (c.after (List.replicate n .engine)).shared.shutDown = c.shared.shutDown := by
  induction n generalizing c with
  | zero => rfl
  | succ n ih => exact (ih h.step).trans h.turn.frame.2.2.2.1

/-- A target that waits is taken up within seven steps when nobody asks for anything else. -/
theorem Waits.begins (h : c.Consistent) (hw : Waits t c) (hs : c.shared.shutDown = false) :
    ∃ m ∈ c.history (List.replicate 7 .engine), ∃ run, m.begun? = some run ∧ run.target = t := by
  have hkeep : ∀ m ∈ c.history (List.replicate 7 .engine), m.withdraws t.id = false := by
    intro m hm
    have ha := List.eq_of_mem_replicate (action_mem hm)
    simp [Moment.withdraws, ha]
  rcases hw.along h _ hkeep with ⟨-, -, hrank⟩ | ⟨between, start, later, run, he, hb, ht, -⟩
  · have hle := hrank ((shutDown_steps h 7).trans hs)
    rw [countP_isStep_steps] at hle
    have : c.stage.untilIdle ≤ 6 := by cases c.stage <;> simp [Stage.untilIdle]
    omega
  · refine ⟨start, ?_, run, hb, ht⟩
    rw [he]
    simp

variable (params : Params Float) (converter : Converter Float) (chassis : Drivetrain)

/-- Setting a target of an unknown id does to all that comes later what dropping the pending target
would do, the target that is shown apart. So where nothing is pending the chassis is told the same
as without the call. Where a target waits its run is lost: without the call the engine takes it up
within seven steps, and after the call it takes up nothing. -/
theorem unknown_target_drops_pending (actions : List Action) (t : Target)
    (h : ((fresh params converter chassis).after actions).shared.registry.contains t.id = false) :
    let c := (fresh params converter chassis).after actions
    let asked := c.serve (.setTarget t)
    (∀ later, told (asked.history later) = told (c.withoutPending.history later) ∧
      ∃ target, asked.after later = (c.withoutPending.after later).withTarget target) ∧
    (c.shared.pending = false → ∀ later, told (asked.history later) = told (c.history later) ∧
      ∃ target, asked.after later = (c.after later).withTarget target) ∧
    (∀ waiting, Waits waiting c → c.shared.shutDown = false →
      (∃ m ∈ c.history (List.replicate 7 .engine), ∃ run, m.begun? = some run ∧
        run.target = waiting) ∧
      ∀ m ∈ asked.history (List.replicate 7 .engine), m.begun? = none) := by
  intro c asked
  have hc : c.Consistent := (consistent_fresh params converter chassis).after actions
  -- The call drops the pending target, and showing another one changes nothing later.
  have hasked : asked = c.withoutPending.withTarget (some t) := serve_setTarget_of_unknown h
  have hsame : SameButTarget c.withoutPending asked := by
    rw [hasked]
    exact SameButTarget.of_not_pending rfl (some t)
  have hdropped : ∀ later, told (asked.history later) = told (c.withoutPending.history later) ∧
      ∃ target, asked.after later = (c.withoutPending.after later).withTarget target := by
    intro later
    obtain ⟨⟨target, hafter, -⟩, htold⟩ := hsame.history hc.withoutPending later
    exact ⟨htold, target, hafter⟩
  refine ⟨hdropped, ?_, ?_⟩
  · intro hp
    rw [withoutPending_eq_self hp] at hdropped
    exact hdropped
  · intro waiting hw hs
    refine ⟨hw.begins hc hs, fun m hm => ?_⟩
    have hnone : asked.shared.pending = false := by rw [hasked]; rfl
    have hquiet : ∀ m ∈ asked.history (List.replicate 7 .engine), m.accepted? = none := by
      apply accepted_none
      intro other ho
      cases List.eq_of_mem_replicate ho
    exact (no_other_run (hc.serve (.setTarget t)) hnone hquiet m hm).1

def secondWaits : List Action :=
  firstSent ++ [.request (.register "B" twoSamples), .request (.setTarget ⟨"B", .forward⟩)]

/-- The second path is lost when a target is set that nobody knows. -/
theorem unknown_target_at_pending :
    let c := (fresh (.ofGeometry ⟨1.0, 1.0, 1.0⟩ ⟨1.0, 1.0⟩ 1.0) ⟨.linear, 1.0, 1.0, 1.0⟩
      (.ofLimit 1.0)).after secondWaits
    let asked := c.serve (.setTarget ⟨"C", .forward⟩)
    c.shared.registry.contains "C" = false ∧
      told (asked.history (List.replicate 20 .engine)) =
        told (c.withoutPending.history (List.replicate 20 .engine)) :=
  ⟨rfl, ((unknown_target_drops_pending _ _ _ secondWaits ⟨"C", .forward⟩ rfl).1 _).1⟩

/-- An unknown target changes what is driven: of the two paths only the first is, and the chassis
is told one command less. -/
theorem unknown_target_changes_commands :
    let c := (fresh (.ofGeometry ⟨1.0, 1.0, 1.0⟩ ⟨1.0, 1.0⟩ 1.0) ⟨.linear, 1.0, 1.0, 1.0⟩
      (.ofLimit 1.0)).after secondWaits
    let asked := c.serve (.setTarget ⟨"C", .forward⟩)
    c.shared.registry.contains "C" = false ∧
      (told (c.history (List.replicate 20 .engine))).length = 3 ∧
      (told (asked.history (List.replicate 20 .engine))).length = 2 :=
  ⟨rfl, rfl, rfl⟩

end Controller

end SkidSteer
