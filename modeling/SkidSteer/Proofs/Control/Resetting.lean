import SkidSteer.Proofs.Control.Tickets

namespace SkidSteer

/-- The run as it would be after `n` requests more. -/
def Run.raised (n : Nat) (run : Run) : Run := { run with ticket := run.ticket + n }

def Stage.raised (n : Nat) : Stage → Stage
  | .idle => .idle
  | .starting run => .starting (run.raised n)
  | .sample run index => .sample (run.raised n) index
  | .enabled run index => .enabled (run.raised n) index
  | .requests run index => .requests (run.raised n) index
  | .sending run index => .sending (run.raised n) index
  | .ending run reason => .ending (run.raised n) reason
  | .resting => .resting
  | .stopping => .stopping
  | .finished => .finished

/-- The shared state as it would be if `n` requests more had come and been answered. -/
def Shared.raised (n : Nat) (s : Shared) : Shared :=
  { s with cancelRequests := s.cancelRequests + n, cancelsHandled := s.cancelsHandled + n }

theorem Shared.serve_raised (n : Nat) (s : Shared) (r : Request) :
    (s.raised n).serve r = (s.serve r).raised n := by
  cases r with
  | cancel => simp [serve, cancel, raised, Nat.add_right_comm]
  | _ => rfl

theorem Stage.idleStep_raised (n : Nat) (s : Shared) :
    idleStep (s.raised n) =
      ((idleStep s).1.raised n, (idleStep s).2.1.raised n, (idleStep s).2.2) := by
  obtain ⟨registry, target, pending, settled, index, requests, handled, disabled, shut⟩ := s
  -- What is wanted depends on the registry and the target alone.
  generalize hw : (target.bind fun t => (registry.get? t.id).map fun path => (t, path)) = wanted
  by_cases hc : handled = requests
  · subst hc
    cases shut <;> cases pending <;> cases disabled <;> cases settled <;> cases wanted <;>
      simp [idleStep, Shared.raised, Shared.begin, Shared.wanted, raised, Run.raised, hw]
  · cases shut <;> cases pending <;> cases disabled <;> cases settled <;> cases wanted <;>
      simp [idleStep, Shared.raised, Shared.rest, Shared.begin, Shared.wanted, raised, Run.raised,
        hw, hc]

theorem Stage.step_raised (converter : Converter Float) (n : Nat) (s : Shared) (stage : Stage) :
    (stage.raised n).step converter (s.raised n) =
      ((stage.step converter s).1.raised n, (stage.step converter s).2.1.raised n,
        (stage.step converter s).2.2) := by
  cases stage with
  | idle => exact idleStep_raised n s
  | sample run index =>
    by_cases hi : run.path.size ≤ index <;> cases hs : s.shutDown <;>
      simp [raised, Run.raised, Shared.raised, step, hi, hs]
  | enabled run index => cases hd : s.disabled <;> simp [raised, Shared.raised, step, hd]
  | requests run index =>
    by_cases hc : s.cancelRequests = run.ticket <;> cases hp : s.pending <;>
      simp [raised, Run.raised, Shared.raised, step, hc, hp]
  | ending run reason =>
    by_cases hr : reason = .preempted <;> simp [raised, Run.raised, step, hr]
  | _ => rfl

namespace Controller

variable {c d : Controller}

/-- The engine cannot tell these controllers apart: one has answered `n` requests more. -/
structure Raised (n : Nat) (c d : Controller) : Prop where
  converter : d.converter = c.converter
  shared : d.shared = c.shared.raised n
  stage : d.stage = c.stage.raised n

theorem Raised.act {n : Nat} (h : Raised n c d) (a : Action) :
    Raised n (c.act a).1 (d.act a).1 ∧ (Moment.mk d a).told = (Moment.mk c a).told := by
  obtain ⟨hc, hs, ht⟩ := h
  cases a with
  | request r => exact ⟨⟨hc, by simp [Controller.act, serve, hs, Shared.serve_raised], ht⟩, rfl⟩
  | engine =>
    have hstep := Stage.step_raised c.converter n c.shared c.stage
    rw [← hs, ← ht] at hstep
    refine ⟨⟨hc, ?_, ?_⟩, ?_⟩
    · simp [Controller.act, Controller.step, hc, hstep]
    · simp [Controller.act, Controller.step, hc, hstep]
    · simp [Moment.told, Controller.act, Controller.step, hc, hstep]

theorem Raised.history {n : Nat} (h : Raised n c d) (actions : List Action) :
    Raised n (c.after actions) (d.after actions) ∧
      told (d.history actions) = told (c.history actions) := by
  induction actions generalizing c d with
  | nil => exact ⟨h, rfl⟩
  | cons a rest ih =>
    obtain ⟨hnext, htold⟩ := h.act a
    obtain ⟨hafter, hrest⟩ := ih hnext
    refine ⟨hafter, ?_⟩
    rw [Controller.history, Controller.history, told_cons, told_cons, htold, hrest]

/-- A reset, with `first` steps of the engine before its second half and `second` after it. -/
def resetting (first second : Nat) : List Action :=
  .request .cancel :: (List.replicate first .engine ++
    .request .enable :: List.replicate second .engine)

/-- Nothing is wanted, and the request with this ticket, the latest, is answered or will be. -/
structure Cancelling (paths : Registry) (ticket : Nat) (c : Controller) : Prop where
  registry : c.shared.registry = paths
  target : c.shared.target = none
  pending : c.shared.pending = false
  requests : c.shared.cancelRequests = ticket
  running : c.shared.shutDown = false
  answered : c.shared.cancelsHandled = ticket →
    c.stage = .idle ∧ c.shared.settled = true ∧ c.shared.runningIndex = none

variable {paths : Registry} {ticket : Nat}

theorem Cancelling.enable (h : Cancelling paths ticket c) :
    Cancelling paths ticket (c.serve .enable) :=
  ⟨h.registry, h.target, h.pending, h.requests, h.running, h.answered⟩

/-- Each step of the engine answers the request or comes closer to that. -/
theorem Cancelling.step (hc : c.Consistent) (hn : c.Ticketed) (h : Cancelling paths ticket c) :
    Cancelling paths ticket c.step.1 ∧ (c.step.1.shared.cancelsHandled = ticket ∨
      c.step.1.stage.untilIdle < c.stage.untilIdle ∧
        c.step.1.shared.cancelsHandled = c.shared.cancelsHandled) := by
  obtain ⟨hpaths, htarget, hpending, hrequests, hrunning, hanswered⟩ := h
  obtain ⟨hr, ht, -, hs, hq⟩ := hc.turn.frame
  have hpnext : c.step.1.shared.pending = false := pending_act hc hpending (a := .engine) rfl
  suffices hnext : (c.step.1.shared.cancelsHandled = ticket → c.step.1.stage = .idle ∧
      c.step.1.shared.settled = true ∧ c.step.1.shared.runningIndex = none) ∧
      (c.step.1.shared.cancelsHandled = ticket ∨
        c.step.1.stage.untilIdle < c.stage.untilIdle ∧
          c.step.1.shared.cancelsHandled = c.shared.cancelsHandled) from
    ⟨⟨hr.trans hpaths, ht.trans htarget, hpnext, hq.trans hrequests, hs.trans hrunning, hnext.1⟩,
      hnext.2⟩
  have hclosing := hc.closing
  cases hc.turn with
  | stays was shut nothing shared now =>
    refine ⟨fun _ => ?_, Or.inl ?_⟩
    · simp [now, shared, Shared.rest]
    · simp [shared, Shared.rest, hrequests]
  | rests was shared now =>
    refine ⟨fun _ => ?_, Or.inl ?_⟩
    · simp [now, shared, Shared.rest]
    · simp [shared, Shared.rest, hrequests]
  | halts run index reason was size finds shared now =>
    refine ⟨fun he => ?_, Or.inr ⟨?_, by rw [shared]⟩⟩
    · rw [shared] at he
      rw [(hanswered he).1] at was
      cases was
    · rw [now]
      cases hstage : c.stage <;> simp_all [Stage.at?, Stage.untilIdle, Stage.obstacle?]
  | readies run index was same =>
    -- The run in hand is older than the request, which its look cannot miss.
    have hrun := hn.run run (by rw [was]; rfl)
    have hidle := (hanswered (hrun.trans (same.symm.trans hrequests))).1
    rw [hidle] at was
    cases was
  | _ => simp_all [Stage.untilIdle]

/-- Within as many steps as the engine needs to look for work, and one more, the request is
answered. -/
theorem Cancelling.steps (hc : c.Consistent) (ht : c.Ticketed) (h : Cancelling paths ticket c)
    (n : Nat) :
    Cancelling paths ticket (c.after (List.replicate n .engine)) ∧
      ((c.after (List.replicate n .engine)).shared.cancelsHandled = ticket ∨
        (c.after (List.replicate n .engine)).stage.untilIdle + n ≤ c.stage.untilIdle) := by
  induction n with
  | zero => exact ⟨h, Or.inr (Nat.le_refl _)⟩
  | succ n ih =>
    obtain ⟨hn, hdone⟩ := ih
    have hlast : c.after (List.replicate (n + 1) .engine) =
        (c.after (List.replicate n .engine)).step.1 := by
      rw [List.replicate_succ', after_append]
      rfl
    rw [hlast]
    obtain ⟨hnext, hstep⟩ := hn.step (hc.after _) (ht.after hc _)
    refine ⟨hnext, ?_⟩
    rcases hstep with he | ⟨hlt, heq⟩
    · exact Or.inl he
    · rcases hdone with hd | hd
      · exact Or.inl (heq.trans hd)
      · exact Or.inr (by omega)

/-- What goes on until something holds is some steps of the engine, and says what they say. -/
theorem stepUntil_eq_after (stop : Controller → Bool) (most : Nat) (c : Controller) :
    ∃ n ≤ most, (stepUntil stop most c).1 = c.after (List.replicate n .engine) ∧
      (stepUntil stop most c).2.filterMap Output.command? =
        told (c.history (List.replicate n .engine)) ∧
      (n < most → stop (c.after (List.replicate n .engine)) = true) := by
  induction most generalizing c with
  | zero => exact ⟨0, Nat.le_refl _, rfl, rfl, by simp⟩
  | succ most ih =>
    by_cases hs : stop c = true
    · refine ⟨0, Nat.zero_le _, ?_, ?_, fun _ => hs⟩
      · simp [stepUntil, hs, Controller.after]
      · simp [stepUntil, hs, history, told]
    · obtain ⟨n, hn, he, hsaid, hstop⟩ := ih c.step.1
      refine ⟨n + 1, Nat.succ_le_succ hn, ?_, ?_, fun hlt => hstop (Nat.lt_of_succ_lt_succ hlt)⟩
      · rw [List.replicate_succ]
        change _ = c.step.1.after (List.replicate n .engine)
        rw [← he]
        simp [stepUntil, hs]
      · have hfirst : (Moment.mk c .engine).told = c.step.2.filterMap Output.command? := rfl
        rw [List.replicate_succ, history, told_cons, hfirst]
        change _ = _ ++ told (c.step.1.history (List.replicate n .engine))
        rw [← hsaid]
        simp [stepUntil, hs]

def freshWith (params : Params Float) (converter : Converter Float) (chassis : Drivetrain)
    (paths : Registry) : Controller :=
  { fresh params converter chassis with shared := { Shared.initial with registry := paths } }

theorem Cancelling.raised (h : Cancelling paths ticket c) (hd : c.shared.disabled = false)
    (ha : c.shared.cancelsHandled = ticket) (params : Params Float) (chassis : Drivetrain) :
    Raised ticket (freshWith params c.converter chassis paths) c := by
  obtain ⟨hpaths, htarget, hpending, hrequests, hrunning, hanswered⟩ := h
  obtain ⟨hidle, hsettled, hindex⟩ := hanswered ha
  refine ⟨rfl, ?_, hidle⟩
  cases hs : c.shared
  simp_all [freshWith, Shared.initial, Shared.raised]

variable (params : Params Float) (converter : Converter Float) (chassis : Drivetrain)

end Controller

end SkidSteer
