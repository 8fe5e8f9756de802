import SkidSteer.Proofs.Control.Closing
import SkidSteer.Proofs.Control.Settled

namespace SkidSteer

namespace Moment

end Moment

/-- Requests are answered at rest: no run is in hand, and both motors were told to stop last. -/
structure AtRest (earlier : List Moment) (m : Moment) : Prop where
  run : m.before.stage.run? = none
  told : (told (earlier ++ [m])).getLast? = some .stop
  left : m.after.chassis.left.last = 0.0
  right : m.after.chassis.right.last = 0.0

/-- How a request to cancel, which came after the moments `before`, is answered. -/
structure Answer (before : List Moment) (request : Moment) (between : List Moment)
    (answer : Moment) : Prop where
  due : answer.before.shared.cancelsHandled < request.after.shared.cancelRequests
  given : request.after.shared.cancelRequests ≤ answer.after.shared.cancelsHandled
  rest : AtRest (before ++ request :: between) answer
  /-- The stop was told after the request, unless the engine had told it and had only to say that
  it stands still; then nothing was told since. -/
  since : (told (between ++ [answer])).getLast? = some .stop ∨
    request.before.stage = .resting ∧ told (between ++ [answer]) = []

namespace Controller

variable {c : Controller}

/-- How the requests that were answered stand to those that were made, and to the run in hand. -/
structure Ticketed (c : Controller) : Prop where
  handled : c.shared.cancelsHandled ≤ c.shared.cancelRequests
  run : ∀ run, c.stage.run? = some run → c.shared.cancelsHandled = run.ticket

/-- A step answers no request, or it answers all of them: from idle with a stop, or after a stop. -/
theorem handled_step (h : c.Consistent) :
    c.step.1.shared.cancelsHandled = c.shared.cancelsHandled ∨
      c.step.1.shared.cancelsHandled = c.shared.cancelRequests ∧ c.stage.run? = none ∧
        ((Moment.mk c .engine).told = [.stop] ∨
          (Moment.mk c .engine).told = [] ∧ c.stage = .resting) := by
  by_cases hc : c.shared.cancelsHandled = c.shared.cancelRequests
  · left
    cases h.turn <;> simp_all [Shared.rest, Shared.begin]
  · cases h.turn with
    | takes run was _ _ _ _ _ _ shared now said =>
      right
      exact ⟨by simp [shared, Shared.rest, Shared.begin], by rw [was]; rfl,
        Or.inl (by rw [said, if_neg hc])⟩
    | stays was _ _ shared now said =>
      right
      exact ⟨by simp [shared, Shared.rest], by rw [was]; rfl,
        Or.inl (by rw [said, if_neg fun hq => hc hq.1])⟩
    | rests was shared now said =>
      right
      exact ⟨by simp [shared, Shared.rest], by rw [was]; rfl, Or.inr ⟨said, was⟩⟩
    | _ => simp_all

/-- The run in hand after a step was in hand before it, or is taken up with all requests
answered. -/
theorem run?_of_step (h : c.Consistent) {run : Run} (hr : c.step.1.stage.run? = some run) :
    c.stage.run? = some run ∧ (Moment.mk c .engine).begun? = none ∨
      (Moment.mk c .engine).begun? = some run ∧ run.ticket = c.shared.cancelRequests ∧
        c.step.1.shared.cancelsHandled = c.shared.cancelRequests := by
  cases h.turn with
  | takes taken was _ _ _ _ _ ticket shared now =>
    rw [now] at hr
    cases hr
    exact Or.inr ⟨begun?_engine now, ticket, by simp [shared, Shared.rest, Shared.begin]⟩
  | halts other index reason was size finds shared now =>
    rw [now] at hr
    cases hr
    exact Or.inl ⟨Stage.run?_of_at? was, begun?_engine_none (by simp [now])⟩
  | _ =>
    left
    refine ⟨?_, begun?_engine_none (by simp [*])⟩
    simp_all [Stage.run?]

theorem Ticketed.serve (h : c.Ticketed) (r : Request) : (c.serve r).Ticketed := by
  cases r with
  | cancel => exact ⟨Nat.le_succ_of_le h.handled, h.run⟩
  | _ => exact ⟨h.handled, h.run⟩

theorem Ticketed.step (h : c.Consistent) (ht : c.Ticketed) : c.step.1.Ticketed := by
  have hframe : c.step.1.shared.cancelRequests = c.shared.cancelRequests := h.turn.frame.2.2.2.2
  constructor
  · rw [hframe]
    rcases handled_step h with he | ⟨he, -⟩
    · exact he ▸ ht.handled
    · exact Nat.le_of_eq he
  · intro run hr
    rcases run?_of_step h hr with ⟨hb, -⟩ | ⟨-, hticket, hhandled⟩
    · rcases handled_step h with he | ⟨-, hn, -⟩
      · rw [he]
        exact ht.run run hb
      · rw [hn] at hb
        cases hb
    · rw [hhandled, hticket]

theorem Ticketed.act (h : c.Consistent) (ht : c.Ticketed) (a : Action) : (c.act a).1.Ticketed := by
  cases a with
  | request r => exact ht.serve r
  | engine => exact ht.step h

theorem Ticketed.after (h : c.Consistent) (ht : c.Ticketed) (actions : List Action) :
    (c.after actions).Ticketed :=
  (h.keeps ht fun m _ hc hm => hm.act hc m.action).2

end Controller

end SkidSteer
