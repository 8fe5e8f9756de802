import SkidSteer.Proofs.Control.History

namespace SkidSteer

@[simp] theorem Output.command?_notice (n : Notice) : command? (.notice n) = none := rfl

@[simp] theorem Output.command?_command (c : Command Float) : command? (.command c) = some c := rfl

def Command.isStop {α : Type} : Command α → Bool
  | .stop => true
  | .drive _ _ => false

theorem Run.isStop_of_mem (run : Run) {converter : Converter Float} {command : Command Float}
    (h : command ∈ run.commands converter) : command.isStop = false := by
  obtain ⟨sample, -, rfl⟩ := List.mem_map.1 h
  rfl

namespace Shared

variable {s : Shared}

theorem wanted_eq_some {target : Target} {path : Path} :
    s.wanted = some (target,path) ↔
      s.target = some target ∧ s.registry.get? target.id = some path := by
  simp only [wanted, Option.bind_eq_some_iff, Option.map_eq_some_iff, Prod.mk.injEq]
  constructor
  · rintro ⟨t, ht, p, hp, rfl, rfl⟩
    exact ⟨ht, hp⟩
  · rintro ⟨ht, hp⟩
    exact ⟨target, ht, path, hp, rfl, rfl⟩

@[simp] theorem wanted_rest : s.rest.wanted = s.wanted := rfl
@[simp] theorem pending_rest : s.rest.pending = s.pending := rfl
@[simp] theorem disabled_rest : s.rest.disabled = s.disabled := rfl
@[simp] theorem settled_rest : s.rest.settled = true := rfl
@[simp] theorem cancelRequests_rest : s.rest.cancelRequests = s.cancelRequests := rfl

/-- Coming to rest changes nothing where the engine stands still already. -/
theorem rest_eq_self (hp : s.pending = false) (hs : s.settled = true)
    (hi : s.runningIndex = none) (hc : s.cancelsHandled = s.cancelRequests) :
    { s.rest with pending := false } = s := by
  cases s
  simp_all [rest]

end Shared

namespace Stage

/-- The engine drives nothing, and what it drove last has been dealt with. -/
def isStill : Stage → Bool
  | .idle | .stopping | .finished => true
  | _ => false

/-- A sample that is looked at or sent is one of the path. -/
def Within : Stage → Prop
  | .sample run index => index ≤ run.path.size
  | .enabled run index | .requests run index | .sending run index => index < run.path.size
  | _ => True

theorem run?_of_isStill {stage : Stage} (h : stage.isStill = true) : stage.run? = none := by
  cases stage <;> simp_all [isStill, run?]

theorem isStill_of_at? {stage : Stage} {run : Run} {index : Nat}
    (h : stage.at? = some (run,index)) : stage.isStill = false := by
  cases stage <;> simp_all [isStill, at?]

variable {s : Shared}

theorem idleStep_of_shutDown (h : s.shutDown = true) : idleStep s = (s, .stopping, []) := by
  simp [idleStep, h]

theorem idleStep_of_wanted {target : Target} {path : Path} (hs : s.shutDown = false)
    (hp : s.pending = true) (hd : s.disabled = false) (hw : s.wanted = some (target,path)) :
    idleStep s = (s.rest.begin, .starting ⟨target, path, s.cancelRequests⟩,
      if s.cancelsHandled = s.cancelRequests then [] else [.command .stop]) := by
  by_cases hc : s.cancelsHandled = s.cancelRequests
  · simp [idleStep, hs, hp, hd, hw, hc, Shared.rest, Shared.begin]
  · simp [idleStep, hs, hp, hd, hw, hc]

/-- With nothing to take up the engine comes to rest, with a stop where one is due. -/
theorem idleStep_of_not_wanted (hs : s.shutDown = false)
    (hi : s.settled = true → s.runningIndex = none)
    (hd : s.disabled = true → s.pending = false) (hw : s.pending = true → s.wanted = none) :
    ∃ outputs, idleStep s = ({ s.rest with pending := false }, .idle, outputs) ∧
      outputs.filterMap Output.command? =
        if s.cancelsHandled = s.cancelRequests ∧ s.settled then [] else [.stop] := by
  by_cases hc : s.cancelsHandled = s.cancelRequests
  · cases hp : s.pending with
    | false =>
      cases hq : s.settled with
      | true =>
        rw [Shared.rest_eq_self hp hq (hi hq) hc]
        exact ⟨[], by simp [idleStep, hs, hp, hq, hc], by simp [hc]⟩
      | false =>
        exact ⟨[.command .stop], by simp [idleStep, hs, hp, hq, hc, Shared.rest], by simp⟩
    | true =>
      have hd' : s.disabled = false := by cases h : s.disabled <;> simp_all
      cases hq : s.settled with
      | true =>
        exact ⟨[.notice .pendingGone],
          by simp [idleStep, hs, hp, hd', hw hp, hq, hc, hi hq, Shared.rest], by simp [hc]⟩
      | false =>
        exact ⟨[.notice .pendingGone, .command .stop],
          by simp [idleStep, hs, hp, hd', hw hp, hq, hc, Shared.rest],
          by rw [if_neg (by simp)]; rfl⟩
  · cases hp : s.pending with
    | false =>
      exact ⟨[.command .stop], by simp [idleStep, hs, hp, hc, Shared.rest], by simp [hc]⟩
    | true =>
      have hd' : s.disabled = false := by cases h : s.disabled <;> simp_all
      exact ⟨[.command .stop, .notice .pendingGone],
        by simp [idleStep, hs, hp, hd', hw hp, hc], by simp [hc]⟩

end Stage

namespace Controller

variable {c : Controller}

/-- What holds of the shared state and the stage between any two steps. -/
structure Consistent (c : Controller) : Prop where
  disabled : c.shared.disabled = true → c.shared.pending = false
  still : c.shared.settled = true → c.stage.isStill = true
  index : c.shared.settled = true → c.shared.runningIndex = none
  within : c.stage.Within
  closing : c.stage = .stopping ∨ c.stage = .finished → c.shared.shutDown = true

/-- What a step of the engine can do: from which stage and on which condition, and what becomes of
the shared state and the stage and is told to the chassis. -/
inductive Turn (converter : Converter Float) (s : Shared) (stage : Stage) (next : Shared)
    (stage' : Stage) (told : List (Command Float)) : Prop where
  | closes (was : stage = .idle) (shut : s.shutDown = true) (shared : next = s)
      (now : stage' = .stopping) (said : told = [])
  | takes (run : Run) (was : stage = .idle) (shut : s.shutDown = false) (pending : s.pending = true)
      (enabled : s.disabled = false) (target : s.target = some run.target)
      (path : s.registry.get? run.target.id = some run.path)
      (ticket : run.ticket = s.cancelRequests) (shared : next = s.rest.begin)
      (now : stage' = .starting run)
      (said : told = if s.cancelsHandled = s.cancelRequests then [] else [.stop])
  | stays (was : stage = .idle) (shut : s.shutDown = false)
      (nothing : s.pending = true → s.wanted = none)
      (shared : next = { s.rest with pending := false }) (now : stage' = .idle)
      (said : told = if s.cancelsHandled = s.cancelRequests ∧ s.settled then [] else [.stop])
  | starts (run : Run) (was : stage = .starting run) (shared : next = s)
      (now : stage' = .sample run 0) (said : told = [])
  | completes (run : Run) (was : stage = .sample run run.path.size) (shared : next = s)
      (now : stage' = .ending run .complete) (said : told = [])
  | halts (run : Run) (index : Nat) (reason : RunEnd) (was : stage.at? = some (run,index))
      (size : index < run.path.size) (finds : stage.obstacle? s = some reason) (shared : next = s)
      (now : stage' = .ending run reason) (said : told = [])
  | passes (run : Run) (index : Nat) (was : stage = .sample run index)
      (size : index < run.path.size) (shut : s.shutDown = false) (shared : next = s)
      (now : stage' = .enabled run index) (said : told = [])
  | allows (run : Run) (index : Nat) (was : stage = .enabled run index)
      (enabled : s.disabled = false) (shared : next = s)
      (now : stage' = .requests run index) (said : told = [])
  | readies (run : Run) (index : Nat) (was : stage = .requests run index)
      (ticket : s.cancelRequests = run.ticket) (pending : s.pending = false)
      (shared : next = { s with runningIndex := some index })
      (now : stage' = .sending run index) (said : told = [])
  | sends (run : Run) (index : Nat) (command : Command Float) (was : stage = .sending run index)
      (of : (run.commands converter)[index]? = some command) (shared : next = s)
      (now : stage' = .sample run (index + 1)) (said : told = [command])
  | yields (run : Run) (was : stage = .ending run .preempted) (shared : next = s)
      (now : stage' = .idle) (said : told = [])
  | ends (run : Run) (reason : RunEnd) (was : stage = .ending run reason)
      (other : reason ≠ .preempted) (shared : next = s) (now : stage' = .resting)
      (said : told = [.stop])
  | rests (was : stage = .resting) (shared : next = s.rest) (now : stage' = .idle)
      (said : told = [])
  | finishes (was : stage = .stopping) (shared : next = s) (now : stage' = .finished)
      (said : told = [.stop])
  | finished (was : stage = .finished) (shared : next = s) (now : stage' = .finished)
      (said : told = [])

theorem Consistent.turn (h : c.Consistent) :
    Turn c.converter c.shared c.stage c.step.1.shared c.step.1.stage
      (Moment.mk c .engine).told := by
  have hs : c.step.1.shared = (c.stage.step c.converter c.shared).1 := rfl
  have ht : c.step.1.stage = (c.stage.step c.converter c.shared).2.1 := rfl
  have ho : (Moment.mk c .engine).told =
      (c.stage.step c.converter c.shared).2.2.filterMap Output.command? := rfl
  have hw := h.within
  rw [hs, ht, ho]
  cases was : c.stage with
  | idle =>
    simp only [Stage.step]
    cases shut : c.shared.shutDown with
    | true =>
      rw [Stage.idleStep_of_shutDown shut]
      exact .closes rfl shut rfl rfl rfl
    | false =>
      -- A pending target whose path is gone is dropped, so it is no work to take up.
      by_cases hp : c.shared.pending = true ∧ c.shared.wanted ≠ none
      · obtain ⟨⟨target, path⟩, hf⟩ := Option.ne_none_iff_exists'.1 hp.2
        have hd : c.shared.disabled = false := by
          cases hd : c.shared.disabled with
          | false => rfl
          | true => rw [h.disabled hd] at hp; simp at hp
        obtain ⟨htarget, hpath⟩ := Shared.wanted_eq_some.1 hf
        rw [Stage.idleStep_of_wanted shut hp.1 hd hf]
        refine .takes ⟨target, path, c.shared.cancelRequests⟩ rfl shut hp.1 hd htarget hpath rfl rfl
          rfl ?_
        by_cases hc : c.shared.cancelsHandled = c.shared.cancelRequests <;> simp [hc]
      · have hn : c.shared.pending = true → c.shared.wanted = none :=
          fun hq => Classical.not_not.1 fun hf => hp ⟨hq, hf⟩
        obtain ⟨outputs, he, hsays⟩ := Stage.idleStep_of_not_wanted shut h.index h.disabled hn
        rw [he]
        exact .stays rfl shut hn rfl rfl hsays
  | starting run => exact .starts run rfl rfl rfl rfl
  | sample run index =>
    simp only [Stage.Within, was] at hw
    simp only [Stage.step]
    split
    · have hi : index = run.path.size := by omega
      subst hi
      exact .completes run rfl rfl rfl rfl
    · have hi : index < run.path.size := by omega
      split
      · rename_i hshut
        exact .halts run index .shutdown rfl hi (by simp [Stage.obstacle?, hi, hshut]) rfl rfl rfl
      · rename_i hshut
        exact .passes run index rfl hi (by simpa using hshut) rfl rfl rfl
  | enabled run index =>
    simp only [Stage.Within, was] at hw
    simp only [Stage.step]
    split
    · rename_i hd
      exact .halts run index .disabled rfl hw (by simp [Stage.obstacle?, hd]) rfl rfl rfl
    · rename_i hd
      exact .allows run index rfl (by simpa using hd) rfl rfl rfl
  | requests run index =>
    simp only [Stage.Within, was] at hw
    simp only [Stage.step]
    split
    · rename_i hc
      exact .halts run index .cancelled rfl hw (by simp [Stage.obstacle?, hc]) rfl rfl rfl
    · rename_i hc
      split
      · rename_i hp
        exact .halts run index .preempted rfl hw (by simp [Stage.obstacle?, hc, hp]) rfl rfl rfl
      · rename_i hp
        exact .readies run index rfl (Classical.not_not.1 hc) (by simpa using hp) rfl rfl rfl
  | sending run index =>
    simp only [Stage.Within, was] at hw
    have hf : run.path.samples[index]? = some run.path.samples[index] :=
      Array.getElem?_eq_getElem hw
    refine .sends run index (run.command c.converter (run.path.samples[index].map Binary64.toFloat))
      rfl ?_ rfl rfl ?_
    · simp [Run.commands, hf]
    · simp [Stage.step, Path.sample?, Trajectory.get?, hf]
  | ending run reason =>
    simp only [Stage.step]
    split
    · rename_i hr
      subst hr
      exact .yields run rfl rfl rfl rfl
    · rename_i hr
      exact .ends run reason rfl hr rfl rfl rfl
  | resting => exact .rests rfl rfl rfl rfl
  | stopping => exact .finishes rfl rfl rfl rfl
  | finished => exact .finished rfl rfl rfl rfl

/-- The engine leaves alone what belongs to the callers. -/
theorem Turn.frame {converter : Converter Float} {s next : Shared} {stage stage' : Stage}
    {said : List (Command Float)} (h : Turn converter s stage next stage' said) :
    next.registry = s.registry ∧ next.target = s.target ∧ next.disabled = s.disabled ∧
      next.shutDown = s.shutDown ∧ next.cancelRequests = s.cancelRequests := by
  cases h <;> simp_all [Shared.rest, Shared.begin]

theorem consistent_fresh (params : Params Float) (converter : Converter Float)
    (chassis : Drivetrain) : (fresh params converter chassis).Consistent :=
  ⟨by simp [fresh, Shared.initial], by simp [fresh, Stage.isStill],
    by simp [fresh, Shared.initial], trivial, by simp [fresh]⟩

theorem Consistent.serve (h : c.Consistent) (r : Request) : (c.serve r).Consistent := by
  obtain ⟨hd, hs, hi, hw, hc⟩ := h
  refine ⟨?_, ?_, ?_, hw, ?_⟩
  · cases r <;>
      simp_all [Controller.serve, Shared.serve, Shared.setTarget, Shared.accepts,
        Shared.setDisabled, Shared.cancel]
  · cases r <;> exact hs
  · cases r <;> exact hi
  · cases r with
    | shutDown => exact fun _ => rfl
    | _ => exact hc

theorem Consistent.unsettled (h : c.Consistent) (hb : c.stage.isStill = false) :
    c.shared.settled = false := by
  cases hq : c.shared.settled with
  | false => rfl
  | true =>
    rw [h.still hq] at hb
    cases hb

/-- What has the shared state of a consistent controller is consistent when its stage allows it. -/
theorem Consistent.of_shared (h : c.Consistent) {d : Controller} (hs : d.shared = c.shared)
    (hq : c.stage.isStill = false ∨ d.stage.isStill = true) (hw : d.stage.Within)
    (hc : d.stage = .stopping ∨ d.stage = .finished → c.shared.shutDown = true) :
    d.Consistent := by
  refine ⟨hs ▸ h.disabled, ?_, hs ▸ h.index, hw, hs ▸ hc⟩
  rw [hs]
  intro hsettled
  rcases hq with hb | hq
  · rw [h.unsettled hb] at hsettled
    cases hsettled
  · exact hq

theorem Consistent.step (h : c.Consistent) : c.step.1.Consistent := by
  have hw := h.within
  cases h.turn with
  | closes was shut shared now =>
    exact h.of_shared shared (Or.inr (by rw [now]; rfl)) (by rw [now]; trivial) fun _ => shut
  | takes run was _ _ _ _ _ _ shared now =>
    exact ⟨by simp [shared, Shared.begin], by simp [shared, Shared.begin],
      by simp [shared, Shared.begin], by rw [now]; trivial, by simp [now]⟩
  | stays was _ _ shared now =>
    exact ⟨by simp [shared], fun _ => by rw [now]; rfl, by simp [shared, Shared.rest],
      by rw [now]; trivial, by simp [now]⟩
  | readies run index was _ _ shared now =>
    have hq := h.unsettled (by rw [was]; rfl)
    rw [was] at hw
    exact ⟨by rw [shared]; exact h.disabled, by simp [shared, hq], by simp [shared, hq],
      by rw [now]; exact hw, by simp [now]⟩
  | rests was shared now =>
    exact ⟨by rw [shared]; exact h.disabled, fun _ => by rw [now]; rfl,
      by simp [shared, Shared.rest], by rw [now]; trivial, by simp [now]⟩
  | finishes was shared now =>
    exact h.of_shared shared (Or.inr (by rw [now]; rfl)) (by rw [now]; trivial)
      fun _ => h.closing (Or.inl was)
  | finished was shared now =>
    exact h.of_shared shared (Or.inr (by rw [now]; rfl)) (by rw [now]; trivial)
      fun _ => h.closing (Or.inr was)
  | yields run was shared now =>
    exact h.of_shared shared (Or.inr (by rw [now]; rfl)) (by rw [now]; trivial) (by simp [now])
  | halts run index reason was _ _ shared now =>
    exact h.of_shared shared (Or.inl (Stage.isStill_of_at? was)) (by rw [now]; trivial)
      (by simp [now])
  | starts run was shared now =>
    exact h.of_shared shared (Or.inl (by rw [was]; rfl)) (by rw [now]; exact Nat.zero_le _)
      (by simp [now])
  | completes run was shared now | ends run reason was _ shared now =>
    exact h.of_shared shared (Or.inl (by rw [was]; rfl)) (by rw [now]; trivial) (by simp [now])
  | passes run index was size _ shared now =>
    exact h.of_shared shared (Or.inl (by rw [was]; rfl)) (by rw [now]; exact size) (by simp [now])
  | allows run index was _ shared now | sends run index _ was _ shared now =>
    rw [was] at hw
    exact h.of_shared shared (Or.inl (by rw [was]; rfl)) (by rw [now]; exact hw) (by simp [now])

theorem Consistent.act (h : c.Consistent) (a : Action) : (c.act a).1.Consistent := by
  cases a with
  | request r => exact h.serve r
  | engine => exact h.step

theorem Consistent.after (h : c.Consistent) (actions : List Action) :
    (c.after actions).Consistent := by
  induction actions generalizing c with
  | nil => exact h
  | cons a rest ih => exact ih (h.act a)

/-- Each moment of a history that begins consistently is met by a consistent controller. -/
theorem Consistent.moment (h : c.Consistent) {actions : List Action} {m : Moment}
    (he : m ∈ c.history actions) : m.before.Consistent := by
  obtain ⟨earlier, later, hs⟩ := List.append_of_mem he
  obtain ⟨before, _, _, _, hb, _⟩ := history_split hs
  exact hb ▸ h.after before

/-- A fact about a controller and its history so far holds all along when every action keeps it. -/
theorem Consistent.along {P : Controller → List Moment → Prop} (h : c.Consistent) (start : P c [])
    (keep : ∀ c moments a, c.Consistent → P c moments → P (c.act a).1 (moments ++ [⟨c, a⟩]))
    (actions : List Action) : P (c.after actions) (c.history actions) := by
  suffices ∀ earlier, P c earlier → P (c.after actions) (earlier ++ c.history actions) from
    this [] start
  clear start
  induction actions generalizing c with
  | nil =>
    intro earlier hp
    simpa [history, Controller.after] using hp
  | cons a rest ih =>
    intro earlier hp
    have := ih (h.act a) (earlier ++ [⟨c, a⟩]) (keep c earlier a h hp)
    simpa [history, Controller.after] using this

/-- A fact about a controller that each action of a history keeps holds all along. -/
theorem Consistent.keeps {P : Controller → Prop} (h : c.Consistent) {actions : List Action}
    (hp : P c)
    (keep : ∀ m ∈ c.history actions, m.before.Consistent → P m.before → P m.after) :
    (∀ m ∈ c.history actions, P m.before) ∧ P (c.after actions) := by
  induction actions generalizing c with
  | nil => exact ⟨by simp [history], hp⟩
  | cons a rest ih =>
    have hn := keep ⟨c, a⟩ (List.mem_cons_self ..) h hp
    obtain ⟨hall, hafter⟩ := ih (h.act a) hn fun m hm => keep m (List.mem_cons_of_mem _ hm)
    exact ⟨List.forall_mem_cons.2 ⟨hp, hall⟩, hafter⟩

/-- A shutdown is not taken back. -/
theorem shutDown_act (h : c.Consistent) (hs : c.shared.shutDown = true) (a : Action) :
    (c.act a).1.shared.shutDown = true := by
  cases a with
  | engine => exact h.turn.frame.2.2.2.1.trans hs
  | request r =>
    cases r with
    | shutDown => rfl
    | _ => exact hs

theorem shutDown_after (h : c.Consistent) (hs : c.shared.shutDown = true) (actions : List Action) :
    (c.after actions).shared.shutDown = true :=
  (h.keeps (P := fun c => c.shared.shutDown = true) hs
    fun m _ hc hs => shutDown_act hc hs m.action).2

end Controller

/-- A run is taken up from idle, of a target that is pending, enabled and still registered. -/
theorem Moment.begun?_eq_some {m : Moment} {run : Run} (hc : m.before.Consistent)
    (h : m.begun? = some run) :
    m.action = .engine ∧ m.before.stage = .idle ∧ m.before.shared.shutDown = false ∧
      m.before.shared.pending = true ∧ m.before.shared.disabled = false ∧
      m.before.shared.target = some run.target ∧
      m.before.shared.registry.get? run.target.id = some run.path ∧
      run.ticket = m.before.shared.cancelRequests := by
  obtain ⟨c, a⟩ := m
  cases a with
  | request r => cases h
  | engine =>
    have hn : c.step.1.stage = .starting run := stage_of_begun h
    cases hc.turn with
    | takes taken was shut pending enabled target path ticket shared now said =>
      rw [now] at hn
      cases hn
      exact ⟨rfl, was, shut, pending, enabled, target, path, ticket⟩
    | _ => simp_all

end SkidSteer
