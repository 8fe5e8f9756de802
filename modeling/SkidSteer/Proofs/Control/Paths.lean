import SkidSteer.Proofs.Control.Turns
import SkidSteer.Proofs.Registry

namespace SkidSteer.Controller

variable {c : Controller} {P : Path → Prop}

/-- Every path that is kept, or driven, has a property. -/
structure Paths (P : Path → Prop) (c : Controller) : Prop where
  kept : ∀ entry ∈ c.shared.registry.entries, P entry.2
  driven : ∀ run, c.stage.run? = some run → P run.path

theorem Paths.serve (h : Paths P c) {r : Request}
    (hr : ∀ id path, r = .register id path → path.isEmpty = false → P path) :
    Paths P (c.serve r) := by
  refine ⟨?_, h.driven⟩
  intro entry hm
  cases r with
  | register id path =>
    rcases Registry.mem_insert hm with hm | ⟨rfl, he⟩
    · exact h.kept entry hm
    · exact hr id path rfl he
  | remove id => exact h.kept entry (Registry.mem_erase hm)
  | _ => exact h.kept entry hm

theorem Paths.step (hc : c.Consistent) (h : Paths P c) : Paths P c.step.1 := by
  refine ⟨?_, ?_⟩
  · rw [hc.turn.frame.1]
    exact h.kept
  · intro run hr
    cases hb : (Moment.mk c .engine).begun? with
    | some other =>
      obtain ⟨-, -, -, -, -, -, hpath, -⟩ := Moment.begun?_eq_some hc hb
      have hnow : c.step.1.stage = .starting other := Moment.stage_of_begun hb
      rw [hnow] at hr
      cases hr
      exact h.kept _ (Registry.mem_of_get? hpath)
    | none =>
      have hdriven := h.driven
      cases hc.turn with
      | halts other index reason was size finds shared now =>
        rw [now] at hr
        exact hdriven run ((Stage.run?_of_at? was).trans hr)
      | takes other was shut pending enabled target path ticket shared now =>
        rw [begun?_engine now] at hb
        cases hb
      | _ => simp_all [Stage.run?]

theorem Paths.after (hc : c.Consistent) (h : Paths P c) {actions : List Action}
    (ha : ∀ id path, .request (.register id path) ∈ actions → path.isEmpty = false → P path) :
    (∀ m ∈ c.history actions, Paths P m.before) ∧ Paths P (c.after actions) := by
  refine hc.keeps h fun m hm hbefore hp => ?_
  obtain ⟨before, a⟩ := m
  cases a with
  | engine => exact hp.step hbefore
  | request r =>
    refine hp.serve fun id path he => ?_
    subst he
    exact ha id path (action_mem hm)

theorem Paths.fresh (params : Params Float) (converter : Converter Float) (chassis : Drivetrain) :
    Paths P (Controller.fresh params converter chassis) :=
  ⟨fun _ he => (List.not_mem_nil he).elim, fun _ hr => nomatch hr⟩

/-- No path that can be looked up is empty. -/
theorem isEmpty_of_path? {params : Params Float} {converter : Converter Float}
    {chassis : Drivetrain} {actions : List Action} {id : String} {path : Path}
    (h : ((fresh params converter chassis).after actions).path? id = some path) :
    path.isEmpty = false := by
  have hpaths : Paths (fun path => path.isEmpty = false)
      ((Controller.fresh params converter chassis).after actions) :=
    ((Paths.fresh params converter chassis).after (consistent_fresh params converter chassis)
      fun _ _ _ hp => hp).2
  exact hpaths.kept _ (Registry.mem_of_get? h)

end SkidSteer.Controller
