import SkidSteer.Proofs.Control.Causes

namespace SkidSteer

/-- The run that was taken up last, and what the chassis was told since. -/
def LastRun (moments : List Moment) (run : Run) (since : List (Command Float)) : Prop :=
  ∃ earlier m later, moments = earlier ++ m :: later ∧ m.begun? = some run ∧
    (∀ x ∈ later, x.begun? = none) ∧ told later = since

theorem LastRun.begin {m : Moment} {run : Run} (moments : List Moment) (h : m.begun? = some run) :
    LastRun (moments ++ [m]) run [] :=
  ⟨moments, m, [], rfl, h, by simp, rfl⟩

theorem LastRun.concat {moments : List Moment} {run : Run} {since : List (Command Float)}
    {m : Moment} (h : LastRun moments run since) (he : m.begun? = none) :
    LastRun (moments ++ [m]) run (since ++ m.told) := by
  obtain ⟨earlier, first, later, rfl, hb, hl, rfl⟩ := h
  refine ⟨earlier, first, later ++ [m], by simp, hb, ?_, by simp [told]⟩
  intro x hx
  rcases List.mem_append.mp hx with hx | hx
  · exact hl x hx
  · rwa [List.mem_singleton.mp hx]

def Stopped (commands : List (Command Float)) : Prop :=
  ∀ command, commands.getLast? = some command → command = .stop

theorem Stopped.nil : Stopped [] := by simp [Stopped]

theorem Stopped.append_stop (commands : List (Command Float)) : Stopped (commands ++ [.stop]) := by
  simp [Stopped]

theorem Stopped.append_none {commands none : List (Command Float)} (h : Stopped commands)
    (hn : none = []) : Stopped (commands ++ none) := by
  rwa [hn, List.append_nil]

namespace Controller

variable {c : Controller}

/-- No run goes on and no target is pending. -/
def Over (c : Controller) : Prop := c.stage.at? = none ∧ c.shared.pending = false

theorem pending_act (h : c.Consistent) (hp : c.shared.pending = false) {a : Action}
    (ha : (Moment.mk c a).accepted? = none) : (c.act a).1.shared.pending = false := by
  cases a with
  | request r =>
    cases r <;> simp_all [act, serve, Shared.serve, Shared.setTarget, Shared.setDisabled,
      Shared.cancel, Moment.accepted?]
  | engine =>
    change c.step.1.shared.pending = false
    cases h.turn <;> simp_all [Shared.rest]

theorem Over.act (h : c.Consistent) (ho : c.Over) {a : Action}
    (ha : (Moment.mk c a).accepted? = none) :
    (c.act a).1.Over ∧ ∀ command ∈ (Moment.mk c a).told, command = .stop := by
  obtain ⟨hs, hp⟩ := ho
  cases a with
  | request r => exact ⟨⟨hs, pending_act h hp ha⟩, by simp⟩
  | engine =>
    refine ⟨⟨?_, pending_act h hp ha⟩, ?_⟩
    · change c.step.1.stage.at? = none
      cases h.turn <;> simp_all [Stage.at?]
    · cases h.turn <;> simp_all [Stage.at?]

/-- What is over stays over until a target is accepted. -/
theorem Over.moment (h : c.Consistent) (ho : c.Over) {later : List Action}
    (hl : ∀ m ∈ c.history later, m.accepted? = none) : ∀ m ∈ c.history later, m.before.Over :=
  (h.keeps ho fun m hm hc ho => (ho.act hc (hl m hm)).1).1

theorem Over.told_history (h : c.Consistent) (ho : c.Over) {later : List Action}
    (hl : ∀ m ∈ c.history later, m.accepted? = none) :
    ∀ command ∈ told (c.history later), command = .stop := by
  intro command hc
  obtain ⟨m, hm, hc⟩ := List.mem_flatMap.1 hc
  exact ((ho.moment h hl m hm).act (h.moment hm) (hl m hm)).2 command hc

/-- Before the engine stands still the chassis is told to stop. -/
theorem stopped_after (h : c.Consistent) (actions : List Action)
    (hq : (c.after actions).shared.settled = true ∨ (c.after actions).stage = .resting) :
    Stopped (told (c.history actions)) := by
  -- The stop is told a step before the engine shows that it stands, so this is about both.
  refine h.along (P := fun c moments => c.shared.settled = true ∨ c.stage = .resting →
    Stopped (told moments)) (fun _ => Stopped.nil) ?_ actions hq
  clear hq
  intro c moments a h ih hq
  rw [told_append]
  cases a with
  | request r =>
    refine (ih ?_).append_none rfl
    rcases hq with hq | hq
    · cases r <;> exact Or.inl hq
    · exact Or.inr hq
  | engine =>
    change c.step.1.shared.settled = true ∨ c.step.1.stage = .resting at hq
    have hstill := h.still
    rw [told_singleton]
    cases h.turn with
    | takes run was _ _ _ _ _ _ shared now said => simp_all [Shared.begin]
    | stays was _ _ shared now said =>
      rw [said]
      split
      · rename_i hc
        exact (ih (Or.inl hc.2)).append_none rfl
      · exact .append_stop _
    | ends run reason was other shared now said | finishes was shared now said =>
      rw [said]
      exact .append_stop _
    | rests was shared now said => exact (ih (Or.inr was)).append_none said
    -- Nothing is told here, and the engine stood already.
    | closes was _ shared now said | finished was shared now said | yields run was shared now said
    | halts run index reason was _ _ shared now said =>
      rw [shared, now] at hq
      exact (ih (Or.inl (by simpa using hq))).append_none said
    | _ => simp_all [Stage.isStill]

/-- What the shared index and the stage say of the run that was taken up last. -/
structure Tracked (c : Controller) (moments : List Moment) : Prop where
  driven : ∀ run index, c.stage.at? = some (run,index) →
    LastRun moments run ((run.commands c.converter).take index)
  shown : ∀ k, c.shared.runningIndex = some k → ∃ run since, LastRun moments run since ∧
    k < run.path.size ∧ (run.commands c.converter).take k <+: since

/-- A step that neither takes up a run nor sends a sample nor moves the index. -/
theorem Tracked.concat {moments : List Moment} {m : Moment} {d : Controller}
    (ht : Tracked c moments) (hb : m.begun? = none) (hc : d.converter = c.converter)
    (hi : ∀ k, d.shared.runningIndex = some k → c.shared.runningIndex = some k)
    (hd : ∀ run index, d.stage.at? = some (run,index) →
      c.stage.at? = some (run,index) ∧ m.told = []) : Tracked d (moments ++ [m]) := by
  constructor
  · intro run index ha
    obtain ⟨ha, hn⟩ := hd run index ha
    have := (ht.driven run index ha).concat hb
    rwa [hn, List.append_nil, ← hc] at this
  · intro k hk
    obtain ⟨run, since, hl, hlt, hp⟩ := ht.shown k (hi k hk)
    exact ⟨run, since ++ m.told, hl.concat hb, hlt, hc ▸ hp.trans (List.prefix_append _ _)⟩

theorem Tracked.step {moments : List Moment} (h : c.Consistent) (ht : Tracked c moments) :
    Tracked c.step.1 (moments ++ [⟨c, .engine⟩]) := by
  have hw := h.within
  cases h.turn with
  | takes run was _ _ _ _ _ _ shared now said =>
    constructor
    · intro taken index ha
      rw [now] at ha
      cases ha
      exact LastRun.begin moments (begun?_engine now)
    · intro k hk
      simp [shared, Shared.begin] at hk
  | readies run index was _ _ shared now said =>
    have hb := begun?_engine_none (c := c) (by simp [now])
    have hl := (ht.driven run index (by rw [was]; rfl)).concat hb
    rw [said, List.append_nil] at hl
    rw [was] at hw
    constructor
    · intro taken other ha
      rw [now] at ha
      cases ha
      exact hl
    · intro k hk
      simp only [shared, Option.some.injEq] at hk
      subst hk
      exact ⟨run, _, hl, hw, List.prefix_refl _⟩
  | sends run index command was of shared now said =>
    have hb := begun?_engine_none (c := c) (by simp [now])
    have hl := (ht.driven run index (by rw [was]; rfl)).concat hb
    obtain ⟨hlt, he⟩ := List.getElem?_eq_some_iff.1 of
    constructor
    · intro taken other ha
      rw [now] at ha
      cases ha
      rw [said, ← he, List.take_append_getElem] at hl
      exact hl
    · intro k hk
      rw [shared] at hk
      obtain ⟨r, since, hs, hk, hp⟩ := ht.shown k hk
      exact ⟨r, since ++ _, hs.concat hb, hk, hp.trans (List.prefix_append _ _)⟩
  | closes | stays | yields | ends | rests | finishes | finished =>
    refine ht.concat (begun?_engine_none (by simp [*])) rfl (by simp_all [Shared.rest]) ?_
    simp_all [Stage.at?]
  | starts | completes | halts | passes | allows =>
    refine ht.concat (begun?_engine_none (by simp [*])) rfl (by simp_all) ?_
    simp_all [Stage.at?]

theorem tracked_after (h : c.Consistent) (ha : c.stage.at? = none)
    (hi : c.shared.runningIndex = none) (actions : List Action) :
    Tracked (c.after actions) (c.history actions) := by
  refine h.along (P := Tracked) ⟨by simp [ha], by simp [hi]⟩ ?_ actions
  intro c moments a h ht
  cases a with
  | request r =>
    refine ht.concat rfl rfl ?_ ?_
    · cases r <;> exact fun k hk => hk
    · exact fun run index hd => ⟨hd, rfl⟩
  | engine => exact ht.step h

/-- A target that was accepted is given up or taken up before nothing is pending. -/
theorem settles_accepted (h : c.Consistent) {actions : List Action}
    (hp : (c.after actions).shared.pending = false) {i : Nat} {call : Moment} {t : Target}
    (hi : (c.history actions)[i]? = some call) (ha : call.accepted? = some t) :
    (∃ j, Causes (c.history actions) i j) ∨
      ∃ k x, i < k ∧ (c.history actions)[k]? = some x ∧ x.withdraws t.id = true := by
  obtain ⟨earlier, rest, he, rfl, hc, hw, hafter⟩ := after_call h hi ha
  by_cases hg : ∃ x ∈ call.after.history rest, x.withdraws t.id = true
  · obtain ⟨x, hx, hg⟩ := hg
    obtain ⟨k, hk, hget⟩ := List.getElem_of_mem hx
    refine Or.inr ⟨earlier.length + 1 + k, x, by omega, ?_, hg⟩
    rw [he, getElem?_past, List.getElem?_eq_getElem hk, hget]
  · have hkeep : ∀ x ∈ call.after.history rest, x.withdraws t.id = false :=
      fun x hx => Bool.eq_false_iff.2 fun hy => hg ⟨x, hx, hy⟩
    rcases hw.along hc rest hkeep with ⟨hwaits, -⟩ | ⟨first, start, last, run, hf, hb, rfl, ho⟩
    · rw [hafter, hwaits.pending] at hp
      cases hp
    · refine Or.inl ⟨earlier.length + 1 + first.length, ?_⟩
      rw [he, hf]
      exact Causes.of_split ha hb ho

/-- A chassis that was told to stop last has asked both motors for zero. -/
theorem standing_of_stopped {commands : List (Command Float)} (h : Stopped commands)
    {d : Drivetrain} {command : Command Float} (hl : commands.getLast? = some command) :
    (commands.foldl Drivetrain.apply d).left.last = 0.0 ∧
      (commands.foldl Drivetrain.apply d).right.last = 0.0 := by
  obtain ⟨before, rfl⟩ := List.getLast?_eq_some_iff.1 hl
  rw [h command hl, List.foldl_append]
  exact ⟨rfl, rfl⟩

/-- Where nothing is pending and the engine is settled and enabled, no run is in hand and none is
shown, and the motors stand. -/
theorem rest_of_settled (h : c.Consistent) {actions : List Action}
    (hq : (c.after actions).shared.settled = true) :
    (c.after actions).stage.run? = none ∧ (c.after actions).shared.runningIndex = none ∧
      ∀ command, (told (c.history actions)).getLast? = some command → command = .stop ∧
        (c.after actions).chassis.left.last = 0.0 ∧ (c.after actions).chassis.right.last = 0.0 := by
  have hs := stopped_after h actions (Or.inl hq)
  refine ⟨Stage.run?_of_isStill ((h.after actions).still hq), (h.after actions).index hq, ?_⟩
  intro command hl
  rw [chassis_after]
  exact ⟨hs command hl, standing_of_stopped hs hl⟩

theorem over_of_settled (h : c.Consistent) (hq : c.shared.settled = true)
    (hp : c.shared.pending = false) : c.Over := by
  refine ⟨?_, hp⟩
  have := h.still hq
  cases hs : c.stage <;> simp_all [Stage.isStill, Stage.at?]

/-- An index is shown for a run only while the engine is not settled. -/
theorem settled_of_shown (h : c.Consistent) {k : Nat} (hk : c.shared.runningIndex = some k) :
    c.shared.settled = false := by
  cases hq : c.shared.settled with
  | false => rfl
  | true =>
    rw [h.index hq] at hk
    cases hk

variable (params : Params Float) (converter : Converter Float) (chassis : Drivetrain)

/-- Settled means stopped. A controller that is settled and enabled has no run in hand, shows no
index, and owes no accepted target its run; both motors got a zero last, if they got anything; and
nothing but stops is told until a target is accepted. An index that is shown is one of the run that
was taken up last, all samples before it were sent, and the engine is not settled. -/
theorem settled_means_stopped (actions : List Action) :
    let c := (fresh params converter chassis).after actions
    let moments := (fresh params converter chassis).history actions
    (c.shared.disabled = false → c.isSettled = true →
      c.stage.run? = none ∧ c.shared.pending = false ∧ c.shared.runningIndex = none ∧
      (∀ (i : Nat) (call : Moment) (t : Target), moments[i]? = some call →
        call.accepted? = some t → (∃ j, Causes moments i j) ∨
          ∃ k x, i < k ∧ moments[k]? = some x ∧ x.withdraws t.id = true) ∧
      (∀ command, (told moments).getLast? = some command →
        command = .stop ∧ c.chassis.left.last = 0.0 ∧ c.chassis.right.last = 0.0) ∧
      ∀ later, (∀ m ∈ c.history later, m.accepted? = none) →
        ∀ command ∈ told (c.history later), command = .stop) ∧
    ∀ k, c.shared.runningIndex = some k → c.shared.settled = false ∧
      ∃ run since, LastRun moments run since ∧ k < run.path.size ∧
        (run.commands converter).take k <+: since := by
  have h := consistent_fresh params converter chassis
  intro c moments
  have hc : c.Consistent := h.after actions
  constructor
  · intro hd hq
    simp only [isSettled, Shared.isSettled, hd, Bool.false_or, Bool.and_eq_true,
      Bool.not_eq_true'] at hq
    obtain ⟨hq, hp⟩ := hq
    obtain ⟨hrun, hindex, hlast⟩ := rest_of_settled h hq
    refine ⟨hrun, hp, hindex, fun i call t => settles_accepted h hp, hlast, fun later hl => ?_⟩
    exact (over_of_settled hc hq hp).told_history hc hl
  · intro k hk
    refine ⟨settled_of_shown hc hk, ?_⟩
    obtain ⟨run, since, hl, hlt, hp⟩ := (tracked_after h rfl rfl actions).shown k hk
    rw [after_converter] at hp
    exact ⟨run, since, hl, hlt, hp⟩

end Controller

end SkidSteer
