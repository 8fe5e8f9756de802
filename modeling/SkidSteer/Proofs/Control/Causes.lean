import SkidSteer.Proofs.Control.Turns
import SkidSteer.Proofs.Registry

namespace SkidSteer

/-- The steps that the engine has to take before it looks for work, when a target is pending. -/
def Stage.untilIdle : Stage → Nat
  | .resting => 1
  | .ending _ _ => 2
  | .requests _ _ => 3
  | .enabled _ _ => 4
  | .sample _ _ => 5
  | .starting _ | .sending _ _ => 6
  | _ => 0

namespace Moment

/-- What may not come between a target and its run: another target, disabling, the cancelling half
of a reset, or a run. -/
def overrides (m : Moment) : Bool :=
  match m.action with
  | .request (.setTarget _) | .request (.setDisabled true) | .request .cancel => true
  | .request _ => false
  | .engine => m.begun?.isSome

/-- The target of this id is given up here, or loses its path. -/
def withdraws (m : Moment) (id : String) : Bool :=
  match m.action with
  | .request (.setTarget _) | .request (.setDisabled true) | .request .cancel => true
  | .request (.remove other) => other == id
  | _ => false

def blocks (m : Moment) : Prop :=
  m.action = .engine ∧ m.before.stage = .idle ∧ m.after.stage = .idle

end Moment

/-- The run that is taken up at `j` drives the target that was accepted at `i`, and nothing came
between the two. -/
structure Causes (moments : List Moment) (i j : Nat) : Prop where
  before : i < j
  target : ∃ call start run, moments[i]? = some call ∧ moments[j]? = some start ∧
    start.begun? = some run ∧ call.accepted? = some run.target
  between : ∀ k m, i < k → k < j → moments[k]? = some m → m.overrides = false

theorem Moment.overrides_of_accepted {m : Moment} {t : Target} (h : m.accepted? = some t) :
    m.overrides = true := by
  obtain ⟨c, a⟩ := m
  cases a with
  | engine => cases h
  | request r =>
    cases r with
    | setTarget t => rfl
    | _ => cases h

theorem Moment.overrides_of_begun {m : Moment} {run : Run} (h : m.begun? = some run) :
    m.overrides = true := by
  obtain ⟨c, a⟩ := m
  cases a with
  | request r => cases h
  | engine => simp [overrides, h]

theorem split_at {moments : List Moment} {i : Nat} {m : Moment} (h : moments[i]? = some m) :
    ∃ earlier later, moments = earlier ++ m :: later ∧ earlier.length = i := by
  obtain ⟨hi, rfl⟩ := List.getElem?_eq_some_iff.1 h
  refine ⟨moments.take i, moments.drop (i + 1), ?_, ?_⟩
  · rw [List.getElem_cons_drop, List.take_append_drop]
  · rw [List.length_take]
    omega

theorem getElem?_past (earlier rest : List Moment) (call : Moment) (k : Nat) :
    (earlier ++ call :: rest)[earlier.length + 1 + k]? = rest[k]? := by
  rw [List.getElem?_append_right (by omega),
    show earlier.length + 1 + k - earlier.length = k + 1 by omega, List.getElem?_cons_succ]

namespace Causes

variable {moments : List Moment} {i i' j j' : Nat}

theorem overrides_call (h : Causes moments i j) :
    ∃ m, moments[i]? = some m ∧ m.overrides = true := by
  obtain ⟨call, start, run, hi, hj, hb, ha⟩ := h.target
  exact ⟨call, hi, Moment.overrides_of_accepted ha⟩

theorem overrides_start (h : Causes moments i j) :
    ∃ m, moments[j]? = some m ∧ m.overrides = true := by
  obtain ⟨call, start, run, hi, hj, hb, ha⟩ := h.target
  exact ⟨start, hj, Moment.overrides_of_begun hb⟩

/-- A run has one cause at most: of two calls the later would stand between. -/
theorem call_unique (h : Causes moments i j) (h' : Causes moments i' j) : i = i' := by
  rcases Nat.lt_trichotomy i i' with hlt | heq | hlt
  · obtain ⟨m, hm, ho⟩ := h'.overrides_call
    rw [h.between i' m hlt h'.before hm] at ho
    cases ho
  · exact heq
  · obtain ⟨m, hm, ho⟩ := h.overrides_call
    rw [h'.between i m hlt h.before hm] at ho
    cases ho

/-- A call causes one run at most: of two runs the earlier would stand between. -/
theorem start_unique (h : Causes moments i j) (h' : Causes moments i j') : j = j' := by
  rcases Nat.lt_trichotomy j j' with hlt | heq | hlt
  · obtain ⟨m, hm, ho⟩ := h.overrides_start
    rw [h'.between j m h.before hlt hm] at ho
    cases ho
  · exact heq
  · obtain ⟨m, hm, ho⟩ := h'.overrides_start
    rw [h.between j' m h'.before hlt hm] at ho
    cases ho

theorem of_split {earlier between later : List Moment} {call start : Moment} {run : Run}
    (ha : call.accepted? = some run.target) (hb : start.begun? = some run)
    (hn : ∀ m ∈ between, m.overrides = false) :
    Causes (earlier ++ call :: (between ++ start :: later)) earlier.length
      (earlier.length + 1 + between.length) := by
  refine ⟨by omega, ⟨call, start, run, by simp, ?_, hb, ha⟩, ?_⟩
  · rw [getElem?_past]
    simp
  · intro k m hi hj hm
    obtain ⟨d, rfl⟩ := Nat.exists_eq_add_of_lt hi
    rw [Nat.add_right_comm, getElem?_past, List.getElem?_append_left (by omega)] at hm
    exact hn m (List.mem_of_getElem? hm)

end Causes

namespace Controller

variable {c : Controller} {t : Target}

/-- A pending target was accepted just now, or was pending before and not overridden. -/
theorem pending_of_act (h : c.Consistent) {a : Action}
    (hp : (c.act a).1.shared.pending = true) :
    (∃ t, (Moment.mk c a).accepted? = some t ∧ (c.act a).1.shared.target = some t) ∨
      (c.shared.pending = true ∧ (c.act a).1.shared.target = c.shared.target ∧
        (Moment.mk c a).overrides = false) := by
  cases a with
  | request r =>
    cases r with
    | setTarget t => exact Or.inl ⟨t, if_pos hp, rfl⟩
    | setDisabled disabled =>
      cases disabled <;> simp_all [act, serve, Shared.serve, Shared.setDisabled, Moment.overrides]
    | cancel => simp [act, serve, Shared.serve, Shared.cancel] at hp
    | _ => exact Or.inr ⟨hp, rfl, rfl⟩
  | engine =>
    refine Or.inr ⟨?_, h.turn.frame.2.1, ?_⟩
    · change c.step.1.shared.pending = true at hp
      cases h.turn <;> simp_all [Shared.begin]
    · change c.step.1.shared.pending = true at hp
      cases hb : (Moment.mk c .engine).begun? with
      | none => simp [Moment.overrides, hb]
      | some run =>
        obtain ⟨-, was, -⟩ := Moment.begun?_eq_some h hb
        cases h.turn <;> simp_all [Shared.begin, Moment.begun?, Moment.after, act]

/-- A target that is pending was accepted, and nothing overrode it since. -/
theorem pending_has_call (h : c.Consistent) (hn : c.shared.pending = false) (actions : List Action)
    (hp : (c.after actions).shared.pending = true) :
    ∃ earlier call since t, c.history actions = earlier ++ call :: since ∧
      call.accepted? = some t ∧ (c.after actions).shared.target = some t ∧
      ∀ m ∈ since, m.overrides = false := by
  refine h.along (P := fun c moments => c.shared.pending = true →
    ∃ earlier call since t, moments = earlier ++ call :: since ∧ call.accepted? = some t ∧
      c.shared.target = some t ∧ ∀ m ∈ since, m.overrides = false) (by simp [hn]) ?_ actions hp
  clear hp
  intro c moments a h ih hp
  rcases pending_of_act h hp with ⟨t, ha, ht⟩ | ⟨hq, ht, ho⟩
  · exact ⟨moments, ⟨c, a⟩, [], t, rfl, ha, ht, by simp⟩
  · obtain ⟨earlier, call, since, t, rfl, ha, hc, hs⟩ := ih hq
    refine ⟨earlier, call, since ++ [⟨c, a⟩], t, by simp, ha, ht.trans hc, ?_⟩
    intro m hm
    rcases List.mem_append.mp hm with hm | hm
    · exact hs m hm
    · rwa [List.mem_singleton.mp hm]

/-- The target is pending and can be taken up. -/
structure Waits (t : Target) (c : Controller) : Prop where
  pending : c.shared.pending = true
  target : c.shared.target = some t
  known : c.shared.registry.contains t.id = true
  enabled : c.shared.disabled = false

theorem waits_of_accepted {m : Moment} (h : m.accepted? = some t) : Waits t m.after := by
  obtain ⟨c, a⟩ := m
  cases a with
  | engine => cases h
  | request r =>
    cases r with
    | setTarget t' =>
      simp only [Moment.accepted?, Option.ite_none_right_eq_some, Option.some.injEq] at h
      obtain ⟨ha, rfl⟩ := h
      have hk := ha
      rw [Shared.accepts, Bool.and_eq_true, Bool.not_eq_true'] at hk
      exact ⟨ha, rfl, hk.1, hk.2⟩
    | _ => cases h

theorem Waits.wanted_ne_none (h : Waits t c) : c.shared.wanted ≠ none := by
  obtain ⟨path, hp⟩ := Option.isSome_iff_exists.1 h.known
  rw [Shared.wanted_eq_some.2 ⟨h.target, hp⟩]
  simp

/-- No request but one that withdraws it keeps a target from being taken up. -/
theorem Waits.serve (hw : Waits t c) {r : Request}
    (ho : (Moment.mk c (.request r)).withdraws t.id = false) :
    Waits t (c.serve r) ∧ (Moment.mk c (.request r)).overrides = false := by
  obtain ⟨hp, ht, hk, hd⟩ := hw
  cases r with
  | register id path =>
    exact ⟨⟨hp, ht, Registry.contains_insert hk, hd⟩, rfl⟩
  | remove id =>
    have hne : t.id ≠ id := fun he => by simp [Moment.withdraws, he] at ho
    exact ⟨⟨hp, ht, (Registry.contains_erase_of_ne hne).trans hk, hd⟩, rfl⟩
  | setDisabled disabled =>
    cases disabled with
    | true => cases ho
    | false =>
      refine ⟨⟨?_, ht, hk, rfl⟩, rfl⟩
      simp [Controller.serve, Shared.serve, Shared.setDisabled, hp]
  | setTarget _ | cancel => cases ho
  | enable => exact ⟨⟨hp, ht, hk, rfl⟩, rfl⟩
  | shutDown => exact ⟨⟨hp, ht, hk, hd⟩, rfl⟩

/-- The engine takes up a target that waits, or it comes closer to looking for work. -/
theorem Waits.step (h : c.Consistent) (hw : Waits t c) :
    (∃ run, (Moment.mk c .engine).begun? = some run ∧ run.target = t) ∨
      (Waits t c.step.1 ∧ (Moment.mk c .engine).overrides = false ∧
        ¬(Moment.mk c .engine).blocks ∧
        (c.shared.shutDown = false → c.step.1.stage.untilIdle < c.stage.untilIdle)) := by
  have hp := hw.pending
  have hwanted := hw.wanted_ne_none
  cases hb : (Moment.mk c .engine).begun? with
  | some run =>
    obtain ⟨-, -, -, -, -, ht, -⟩ := Moment.begun?_eq_some h hb
    exact Or.inl ⟨run, rfl, Option.some.inj (ht.symm.trans hw.target)⟩
  | none =>
    obtain ⟨hr, ht, hd, -, -⟩ := h.turn.frame
    refine Or.inr ⟨⟨?_, ht.trans hw.target, hr ▸ hw.known, hd.trans hw.enabled⟩,
      by simp [Moment.overrides, hb], ?_, ?_⟩
    · cases h.turn <;> simp_all [Moment.begun?, Moment.after, act]
    · rintro ⟨-, was, is⟩
      change c.stage = .idle at was
      change c.step.1.stage = .idle at is
      cases h.turn <;> simp_all
    · intro hs
      have hc := h.closing
      cases h.turn with
      | halts run index reason was size finds shared now said =>
        rw [now]
        cases hstage : c.stage <;> simp_all [Stage.at?, Stage.untilIdle, Stage.obstacle?]
      | takes run was _ _ _ _ _ _ _ now =>
        simp [Moment.begun?, Moment.after, act, now] at hb
      | _ => simp_all [Stage.untilIdle]

/-- A target that nobody withdraws waits until it is taken up, and the engine does not block
meanwhile. -/
theorem Waits.along (h : c.Consistent) (hw : Waits t c) (actions : List Action)
    (ho : ∀ m ∈ c.history actions, m.withdraws t.id = false) :
    (Waits t (c.after actions) ∧ (∀ m ∈ c.history actions, ¬m.blocks) ∧
      ((c.after actions).shared.shutDown = false →
        (c.history actions).countP Moment.isStep ≤ c.stage.untilIdle)) ∨
      ∃ between start later run, c.history actions = between ++ start :: later ∧
        start.begun? = some run ∧ run.target = t ∧ ∀ m ∈ between, m.overrides = false := by
  induction actions generalizing c with
  | nil => exact Or.inl ⟨hw, by simp [history], by simp [history]⟩
  | cons a rest ih =>
    have hrest : ∀ m ∈ (c.act a).1.history rest, m.withdraws t.id = false :=
      fun m hm => ho m (List.mem_cons_of_mem _ hm)
    -- One action either takes the target up or leaves it waiting, a step closer.
    suffices hstep : (∃ run, (Moment.mk c a).begun? = some run ∧ run.target = t) ∨
        (Waits t (c.act a).1 ∧ (Moment.mk c a).overrides = false ∧ ¬(Moment.mk c a).blocks ∧
          (c.shared.shutDown = false → (c.act a).1.stage.untilIdle +
            (if (Moment.mk c a).isStep then 1 else 0) ≤ c.stage.untilIdle)) by
      rcases hstep with ⟨run, hb, ht⟩ | ⟨hn, hf, hq, hr⟩
      · exact Or.inr ⟨[], ⟨c, a⟩, (c.act a).1.history rest, run, rfl, hb, ht, by simp⟩
      · rcases ih (h.act a) hn hrest with
          ⟨hw', hq', hr'⟩ | ⟨between, start, later, run, he, hb, ht, hf'⟩
        · refine Or.inl ⟨hw', ?_, ?_⟩
          · intro m hm
            rcases List.mem_cons.mp hm with rfl | hm
            · exact hq
            · exact hq' m hm
          -- A shutdown is not taken back, so all the steps are of a live engine.
          · intro hs
            have hlive : c.shared.shutDown = false := by
              cases hd : c.shared.shutDown with
              | false => rfl
              | true => exact absurd (shutDown_after h hd (a :: rest)) (by simp [hs])
            have := hr hlive
            have := hr' hs
            rw [history, List.countP_cons]
            omega
        · refine Or.inr ⟨⟨c, a⟩ :: between, start, later, run, by simp [history, he], hb, ht, ?_⟩
          intro m hm
          rcases List.mem_cons.mp hm with rfl | hm
          · exact hf
          · exact hf' m hm
    cases a with
    | request r =>
      obtain ⟨hn, hf⟩ := hw.serve (ho ⟨c, .request r⟩ (by simp [history]))
      refine Or.inr ⟨hn, hf, fun hq => ?_, fun _ => Nat.le_refl _⟩
      cases hq.1
    | engine =>
      rcases hw.step h with hb | ⟨hn, hf, hq, hr⟩
      · exact Or.inl hb
      · exact Or.inr ⟨hn, hf, hq, hr⟩

/-- Where the engine waits for work there is none, and all that was asked for is answered. -/
theorem rested_of_blocks {m : Moment} (h : m.before.Consistent) (hb : m.blocks) :
    m.after.isBlocked = true ∧ m.after.shared.pending = false ∧ m.after.shared.settled = true ∧
      m.after.shared.runningIndex = none ∧
      m.after.shared.cancelsHandled = m.after.shared.cancelRequests := by
  obtain ⟨c, a⟩ := m
  obtain ⟨rfl, was, is⟩ := hb
  replace h : c.Consistent := h
  have hd : (Moment.mk c .engine).after = c.step.1 := rfl
  rw [hd] at is ⊢
  cases h.turn with
  | stays _ shut _ shared => simp [isBlocked, is, shared, Stage.isBlocked, Shared.rest, shut]
  | _ => simp_all

theorem cause_of_start (h : c.Consistent) (hp : c.shared.pending = false) {actions : List Action}
    {j : Nat} {m : Moment} (hj : (c.history actions)[j]? = some m) (hb : m.begun?.isSome) :
    ∃ i, Causes (c.history actions) i j := by
  obtain ⟨earlier, later, hs, rfl⟩ := split_at hj
  obtain ⟨run, hb⟩ := Option.isSome_iff_exists.1 hb
  obtain ⟨before, between, -, rfl, hm, -⟩ := history_split hs
  have hc : m.before.Consistent := hm ▸ h.after before
  obtain ⟨-, -, -, hpending, -, htarget, -⟩ := Moment.begun?_eq_some hc hb
  rw [hm] at hpending htarget
  obtain ⟨first, call, since, t, he, ha, ht, ho⟩ := pending_has_call h hp before hpending
  rw [htarget] at ht
  obtain rfl := Option.some.inj ht
  refine ⟨first.length, ?_⟩
  rw [hs, he, List.append_assoc, List.cons_append]
  have hlen : (first ++ call :: since).length = first.length + 1 + since.length := by
    rw [List.length_append, List.length_cons]
    omega
  rw [hlen]
  exact Causes.of_split ha hb ho

theorem after_call (h : c.Consistent) {actions : List Action} {i : Nat} {call : Moment}
    (hi : (c.history actions)[i]? = some call) (ha : call.accepted? = some t) :
    ∃ earlier rest, c.history actions = earlier ++ call :: call.after.history rest ∧
      earlier.length = i ∧ call.after.Consistent ∧ Waits t call.after ∧
      c.after actions = call.after.after rest := by
  obtain ⟨earlier, later, hs, hlen⟩ := split_at hi
  obtain ⟨before, rest, rfl, -, hm, rfl⟩ := history_split hs
  refine ⟨earlier, rest, hs, hlen, ?_, waits_of_accepted ha, ?_⟩
  · exact Consistent.act (hm ▸ h.after before) call.action
  · rw [after_append, ← hm]
    rfl

theorem Waits.not_blocks {m : Moment} (h : m.before.Consistent) (hw : Waits t m.before) :
    ¬m.blocks := by
  obtain ⟨c, a⟩ := m
  rintro ⟨rfl, was, is⟩
  rcases Waits.step h hw with ⟨run, hb, -⟩ | ⟨-, -, hq, -⟩
  · change c.step.1.stage = .idle at is
    simp [Moment.begun?, Moment.after, act, is] at hb
  · exact hq ⟨rfl, was, is⟩

/-- Unless somebody withdraws it, the run of an accepted target is taken up before the engine waits
for work. -/
theorem start_before_block (h : c.Consistent) {actions : List Action} {i b : Nat}
    {call m : Moment} (hi : (c.history actions)[i]? = some call) (ha : call.accepted? = some t)
    (hlt : i < b) (hm : (c.history actions)[b]? = some m) (hq : m.blocks)
    (ho : ∀ k x, i < k → k < b → (c.history actions)[k]? = some x → x.withdraws t.id = false) :
    ∃ j, j < b ∧ Causes (c.history actions) i j := by
  obtain ⟨earlier, rest, hs, rfl, hc, hw, -⟩ := after_call h hi ha
  obtain ⟨d, rfl⟩ := Nat.exists_eq_add_of_lt hlt
  rw [hs, Nat.add_right_comm, getElem?_past] at hm
  obtain ⟨between, later, hr, rfl⟩ := split_at hm
  obtain ⟨before, others, -, hbefore, hmeets, -⟩ := history_split hr
  have hkeep : ∀ x ∈ call.after.history before, x.withdraws t.id = false := by
    intro x hx
    rw [hbefore] at hx
    obtain ⟨k, hk, hget⟩ := List.getElem_of_mem hx
    refine ho (earlier.length + 1 + k) x (by omega) (by omega) ?_
    rw [hs, getElem?_past, hr, List.getElem?_append_left hk, List.getElem?_eq_getElem hk, hget]
  rcases hw.along hc before hkeep with ⟨hwaits, -⟩ | ⟨first, start, last, run, he, hb, rfl, hf⟩
  · rw [← hmeets] at hwaits
    exact absurd hq (hwaits.not_blocks (hmeets ▸ hc.after before))
  · rw [hbefore] at he
    refine ⟨earlier.length + 1 + first.length, ?_, ?_⟩
    · rw [he, List.length_append, List.length_cons]
      omega
    · rw [hs, hr, he, List.append_assoc, List.cons_append]
      exact Causes.of_split ha hb hf

/-- Seven steps of the engine are enough for it to take up an accepted target. -/
theorem start_within_steps (h : c.Consistent) {actions : List Action} {i : Nat} {call : Moment}
    (hi : (c.history actions)[i]? = some call) (ha : call.accepted? = some t)
    (ho : ∀ k x, i < k → (c.history actions)[k]? = some x → x.withdraws t.id = false)
    (hs : (c.after actions).shared.shutDown = false)
    (hn : 7 ≤ ((c.history actions).drop (i + 1)).countP Moment.isStep) :
    ∃ j, Causes (c.history actions) i j := by
  obtain ⟨earlier, rest, he, rfl, hc, hw, hafter⟩ := after_call h hi ha
  have hdrop : (c.history actions).drop (earlier.length + 1) = call.after.history rest := by
    rw [he, List.drop_length_add_append]
    rfl
  have hkeep : ∀ x ∈ call.after.history rest, x.withdraws t.id = false := by
    intro x hx
    obtain ⟨k, hk, hget⟩ := List.getElem_of_mem hx
    refine ho (earlier.length + 1 + k) x (by omega) ?_
    rw [he, getElem?_past, List.getElem?_eq_getElem hk, hget]
  rcases hw.along hc rest hkeep with ⟨-, -, hr⟩ | ⟨first, start, last, run, hf, hb, rfl, hover⟩
  · have hle : call.after.stage.untilIdle ≤ 6 := by
      cases call.after.stage <;> simp [Stage.untilIdle]
    have := hr (hafter ▸ hs)
    rw [hdrop] at hn
    omega
  · refine ⟨earlier.length + 1 + first.length, ?_⟩
    rw [he, hf]
    exact Causes.of_split ha hb hover

variable (params : Params Float) (converter : Converter Float) (chassis : Drivetrain)

/-- Every run comes from exactly one accepted target and none is lost. Where a controller is
disabled nothing is pending; each start has one call as its cause and each call causes one start at
most; a call that nobody withdraws has its start before the engine waits for work, and within seven
steps of an engine that is not shut down; and an engine that waits has nothing left to do. -/
theorem runs_match_accepted_targets (actions : List Action) :
    let c := (fresh params converter chassis).after actions
    let moments := (fresh params converter chassis).history actions
    (c.shared.disabled = true → c.shared.pending = false) ∧
    (∀ (j : Nat) (m : Moment), moments[j]? = some m → m.begun?.isSome →
      ∃ i, Causes moments i j ∧ ∀ i', Causes moments i' j → i' = i) ∧
    (∀ i j j', Causes moments i j → Causes moments i j' → j = j') ∧
    (∀ (i : Nat) (call : Moment) (t : Target), moments[i]? = some call → call.accepted? = some t →
      (∀ (b : Nat) (m : Moment), i < b → moments[b]? = some m → m.blocks →
        (∀ (k : Nat) (x : Moment), i < k → k < b → moments[k]? = some x →
          x.withdraws t.id = false) →
        ∃ j, j < b ∧ Causes moments i j) ∧
      ((∀ (k : Nat) (x : Moment), i < k → moments[k]? = some x → x.withdraws t.id = false) →
        c.shared.shutDown = false → 7 ≤ (moments.drop (i + 1)).countP Moment.isStep →
        ∃ j, Causes moments i j)) ∧
    (∀ m ∈ moments, m.blocks → m.after.isBlocked = true ∧ m.after.shared.pending = false ∧
      m.after.shared.settled = true ∧ m.after.shared.runningIndex = none ∧
      m.after.shared.cancelsHandled = m.after.shared.cancelRequests) := by
  have h := consistent_fresh params converter chassis
  refine ⟨(h.after actions).disabled, ?_, ?_, ?_, ?_⟩
  · intro j m hj hb
    obtain ⟨i, hi⟩ := cause_of_start h rfl hj hb
    exact ⟨i, hi, fun i' hi' => hi'.call_unique hi⟩
  · intro i j j' hj hj'
    exact hj.start_unique hj'
  · intro i call t hi ha
    refine ⟨fun b m hlt hm hq ho => start_before_block h hi ha hlt hm hq ho, ?_⟩
    exact fun ho hs hn => start_within_steps h hi ha ho hs hn
  · exact fun m hm hb => rested_of_blocks (h.moment hm) hb

end Controller

end SkidSteer
