import SkidSteer.Proofs.Control.Turns

namespace SkidSteer

namespace Stage

/-- The steps that an engine that is shut down takes before it has finished, at most. -/
def untilFinished : Stage → Nat
  | .finished => 0
  | .stopping => 1
  | .idle => 2
  | .resting => 3
  | .ending _ _ => 4
  | .sample _ _ => 5
  | .starting _ | .sending _ _ => 6
  | .requests _ _ => 7
  | .enabled _ _ => 8

theorem finished_of_untilFinished {stage : Stage} (h : stage.untilFinished = 0) :
    stage = .finished := by
  cases stage with
  | finished => rfl
  | _ => cases h

/-- The samples that are past their look whether to shut down. -/
def samplesPast : Stage → Nat
  | .enabled _ _ | .requests _ _ | .sending _ _ => 1
  | _ => 0

end Stage

namespace Controller

variable {c : Controller}

theorem shutDown_step (h : c.Consistent) (hs : c.shared.shutDown = true) :
    c.step.1.stage.untilFinished ≤ c.stage.untilFinished - 1 ∧
      (Moment.mk c .engine).told.countP (!·.isStop) + c.step.1.stage.samplesPast ≤
        c.stage.samplesPast := by
  cases h.turn with
  | takes run was shut | stays was shut | passes run index was size shut => simp_all
  | halts run index reason was size finds shared now said =>
    rw [now, said]
    cases hstage : c.stage with
    | starting _ | sending _ _ => simp_all [Stage.obstacle?]
    | sample _ _ | enabled _ _ | requests _ _ => simp [Stage.untilFinished, Stage.samplesPast]
    | _ => simp_all [Stage.at?]
  | sends run index command was of shared now said =>
    have hdrive : command.isStop = false := run.isStop_of_mem (List.mem_of_getElem? of)
    simp [was, now, said, hdrive, Stage.untilFinished, Stage.samplesPast]
  | _ => simp [*, Stage.untilFinished, Stage.samplesPast, Command.isStop]

/-- An engine that is shut down sends the samples that are past their look, and finishes. -/
theorem shutDown_history (h : c.Consistent) (hs : c.shared.shutDown = true)
    (actions : List Action) :
    (c.after actions).stage.untilFinished ≤
        c.stage.untilFinished - (c.history actions).countP Moment.isStep ∧
      (told (c.history actions)).countP (!·.isStop) ≤ c.stage.samplesPast := by
  induction actions generalizing c with
  | nil => simp [history, told, Controller.after]
  | cons a rest ih =>
    obtain ⟨hf, hn⟩ := ih (h.act a) (shutDown_act h hs a)
    rw [Controller.after, history, told_cons, List.countP_cons, List.countP_append]
    cases a with
    | request r =>
      exact ⟨hf, by rw [told_request, List.countP_nil, Nat.zero_add]; exact hn⟩
    | engine =>
      obtain ⟨hfstep, hnstep⟩ := shutDown_step h hs
      have hone : (Moment.mk c .engine).isStep = true := rfl
      rw [if_pos hone]
      replace hf : (c.step.1.after rest).stage.untilFinished ≤
          c.step.1.stage.untilFinished - (c.step.1.history rest).countP Moment.isStep := hf
      replace hn : (told (c.step.1.history rest)).countP (!·.isStop) ≤
          c.step.1.stage.samplesPast := hn
      change (c.step.1.after rest).stage.untilFinished ≤ c.stage.untilFinished -
        ((c.step.1.history rest).countP Moment.isStep + 1) ∧
          (Moment.mk c .engine).told.countP (!·.isStop) +
            (told (c.step.1.history rest)).countP (!·.isStop) ≤ c.stage.samplesPast
      omega

/-- Where a stage is come to with a stop and kept in silence, the stop was said last, or the engine
was there from the beginning and said nothing. -/
theorem stop_told_last {Q : Stage → Prop} (h : c.Consistent)
    (comes : ∀ c : Controller, c.Consistent → Q c.step.1.stage →
      (Moment.mk c .engine).told.getLast? = some .stop ∨
        (Moment.mk c .engine).told = [] ∧ Q c.stage)
    (actions : List Action) (hq : Q (c.after actions).stage) :
    (told (c.history actions)).getLast? = some .stop ∨
      told (c.history actions) = [] ∧ Q c.stage := by
  refine h.along (P := fun d moments => Q d.stage →
    (told moments).getLast? = some .stop ∨ told moments = [] ∧ Q c.stage)
    (fun hq => Or.inr ⟨rfl, hq⟩) ?_ actions hq
  intro d moments a hd ih hq
  rw [told_append, told_singleton]
  cases a with
  | request r =>
    rw [told_request, List.append_nil]
    exact ih hq
  | engine =>
    rcases comes d hd hq with hs | ⟨hn, hb⟩
    · exact Or.inl (by rw [List.getLast?_append, hs]; rfl)
    · rw [hn, List.append_nil]
      exact ih hb

/-- An engine that has finished said a stop last. -/
theorem told_of_finished (h : c.Consistent) (hn : c.stage ≠ .finished) (actions : List Action)
    (hf : (c.after actions).stage = .finished) :
    (told (c.history actions)).getLast? = some .stop := by
  refine (stop_told_last (Q := (· = .finished)) h ?_ actions hf).resolve_right fun hq => hn hq.2
  intro d hd hq
  cases hd.turn with
  | finishes was shared now said => exact Or.inl (by rw [said]; rfl)
  | finished was shared now said => exact Or.inr ⟨said, was⟩
  | _ => simp_all

/-- Nothing is said by an engine that has finished. -/
theorem told_after_finished (h : c.Consistent) (hf : c.stage = .finished) (actions : List Action) :
    told (c.history actions) = [] := by
  induction actions generalizing c with
  | nil => rfl
  | cons a rest ih =>
    have hn : (Moment.mk c a).told = [] ∧ (c.act a).1.stage = .finished := by
      cases a with
      | request r => exact ⟨rfl, hf⟩
      | engine =>
        change (Moment.mk c .engine).told = [] ∧ c.step.1.stage = .finished
        cases h.turn <;> simp_all [Stage.at?]
    rw [history, told_cons, hn.1, ih (h.act a) hn.2]
    rfl

end Controller

end SkidSteer
