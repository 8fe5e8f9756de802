import SkidSteer.Proofs.Control.Settled

namespace SkidSteer

/-- The samples that are past their look whether the engine is disabled. -/
def Stage.samplesAllowed : Stage → Nat
  | .requests _ _ | .sending _ _ => 1
  | _ => 0

namespace Moment

def looks (m : Moment) : Bool :=
  match m.action, m.before.stage with
  | .engine, .enabled _ _ => true
  | _, _ => false

theorem enabled_of_looks {m : Moment} (h : m.looks = true) :
    ∃ run index, m.before.stage = .enabled run index := by
  unfold looks at h
  split at h
  · rename_i run index _ hs
    exact ⟨run, index, hs⟩
  · cases h

def enables (m : Moment) : Bool :=
  match m.action with
  | .request (.setDisabled false) | .request .enable => true
  | _ => false

end Moment

namespace Controller

variable {c : Controller} {actions later : List Action}

/-- The first look in a history whether the engine is disabled, with the moments around it. -/
def FirstLook (moments before : List Moment) (look : Moment) (after : List Moment) : Prop :=
  moments = before ++ look :: after ∧ look.looks = true ∧ ∀ m ∈ before, m.looks = false

theorem firstLook_or_none (moments : List Moment) :
    (∀ m ∈ moments, m.looks = false) ∨
      ∃ before look after, FirstLook moments before look after := by
  induction moments with
  | nil => exact Or.inl (by simp)
  | cons m rest ih =>
    cases hm : m.looks with
    | true => exact Or.inr ⟨[], m, rest, rfl, hm, by simp⟩
    | false =>
      rcases ih with hn | ⟨before, look, after, rfl, hl, hb⟩
      · exact Or.inl (List.forall_mem_cons.2 ⟨hm, hn⟩)
      · exact Or.inr ⟨m :: before, look, after, rfl, hl, List.forall_mem_cons.2 ⟨hm, hb⟩⟩

theorem accepted_none (hn : ∀ t, Action.request (.setTarget t) ∉ actions) :
    ∀ m ∈ c.history actions, m.accepted? = none := by
  induction actions generalizing c with
  | nil => simp [history]
  | cons a rest ih =>
    refine List.forall_mem_cons.2 ⟨?_, ih fun t ht => hn t (List.mem_cons_of_mem _ ht)⟩
    cases a with
    | engine => rfl
    | request r =>
      cases r with
      | setTarget t => exact absurd (List.mem_cons_self ..) (hn t)
      | _ => rfl

theorem sends_of_over {m : Moment} (h : m.before.Over) : m.sends = false := by
  rw [Bool.eq_false_iff]
  intro hs
  obtain ⟨run, index, was⟩ := Moment.sending_of_sends hs
  simp [Over, was, Stage.at?] at h

theorem looks_of_over {m : Moment} (h : m.before.Over) : m.looks = false := by
  rw [Bool.eq_false_iff]
  intro hl
  obtain ⟨run, index, was⟩ := Moment.enabled_of_looks hl
  simp [Over, was, Stage.at?] at h

theorem sends_of_looks {m : Moment} (h : m.looks = true) : m.sends = false := by
  rw [Bool.eq_false_iff]
  intro hs
  obtain ⟨run, index, was⟩ := Moment.enabled_of_looks h
  obtain ⟨other, next, was'⟩ := Moment.sending_of_sends hs
  rw [was] at was'
  cases was'

/-- A step that is no look uses up the sample that is allowed by sending it or ending the run. -/
theorem samplesAllowed_step (h : c.Consistent) (hl : (Moment.mk c .engine).looks = false) :
    (if (Moment.mk c .engine).sends then 1 else 0) + c.step.1.stage.samplesAllowed ≤
        c.stage.samplesAllowed ∧
      (c.step.1.stage.at? ≠ none →
        (if (Moment.mk c .engine).sends then 1 else 0) + c.step.1.stage.samplesAllowed =
          c.stage.samplesAllowed) := by
  cases h.turn with
  | halts run index reason was size finds shared now said =>
    simp [now, sends_of_obstacle finds, Stage.samplesAllowed, Stage.at?]
  | allows run index was => simp [Moment.looks, was] at hl
  | _ => simp [*, Moment.sends, Stage.samplesAllowed]

theorem sends_without_look (h : c.Consistent) (hl : ∀ m ∈ c.history actions, m.looks = false) :
    (c.history actions).countP Moment.sends ≤ c.stage.samplesAllowed := by
  induction actions generalizing c with
  | nil => exact Nat.zero_le _
  | cons a rest ih =>
    obtain ⟨ha, hrest⟩ := List.forall_mem_cons.1 hl
    have := ih (h.act a) hrest
    rw [history, List.countP_cons]
    cases a with
    | request r => exact this
    | engine =>
      have hstep := (samplesAllowed_step h ha).1
      change _ ≤ c.step.1.stage.samplesAllowed at this
      omega

/-- Before the first look the sample that is allowed is sent, and no other. -/
theorem sends_before_look (h : c.Consistent) (hp : c.shared.pending = false)
    (hn : ∀ m ∈ c.history actions, m.accepted? = none) {before after : List Moment} {look : Moment}
    (hf : FirstLook (c.history actions) before look after) :
    before.countP Moment.sends = c.stage.samplesAllowed := by
  induction actions generalizing c before with
  | nil =>
    obtain ⟨he, -⟩ := hf
    simp [history] at he
  | cons a rest ih =>
    obtain ⟨he, hl, hb⟩ := hf
    obtain ⟨ha, hrest⟩ := List.forall_mem_cons.1 hn
    cases before with
    | nil =>
      obtain ⟨rfl, -⟩ := List.cons.inj he
      obtain ⟨run, index, was⟩ := Moment.enabled_of_looks hl
      change c.stage = .enabled run index at was
      rw [was]
      rfl
    | cons first before =>
      obtain ⟨rfl, hrestsplit⟩ := List.cons.inj he
      obtain ⟨hfirst, hb⟩ := List.forall_mem_cons.1 hb
      have hpnext := pending_act h hp ha
      have := ih (h.act a) hpnext hrest ⟨hrestsplit, hl, hb⟩
      rw [List.countP_cons, this]
      cases a with
      | request r => rfl
      | engine =>
        rw [Nat.add_comm]
        -- The run cannot be over before a look that is still to come.
        refine (samplesAllowed_step h hfirst).2 fun hat => ?_
        have hlook : look ∈ c.step.1.history rest := by
          rw [show c.step.1.history rest = before ++ look :: after from hrestsplit]
          simp
        have hover : c.step.1.Over := ⟨hat, hpnext⟩
        rw [looks_of_over (hover.moment h.step hrest look hlook)] at hl
        cases hl

theorem over_of_look {m : Moment} (h : m.before.Consistent) (hl : m.looks = true)
    (hd : m.before.shared.disabled = true) : m.after.Over := by
  obtain ⟨c, a⟩ := m
  cases a with
  | request r => cases hl
  | engine =>
    replace h : c.Consistent := h
    replace hd : c.shared.disabled = true := hd
    have hp := h.disabled hd
    change c.step.1.Over
    cases h.turn with
    | halts run index reason was size finds shared now => exact ⟨by rw [now]; rfl, by rwa [shared]⟩
    | allows run index was enabled => simp [hd] at enabled
    | _ => simp_all [Moment.looks]

/-- A look that finds the engine disabled is the last that is heard of the run. -/
theorem sends_after_look (h : c.Consistent) (hn : ∀ m ∈ c.history actions, m.accepted? = none)
    {before after : List Moment} {look : Moment}
    (hf : FirstLook (c.history actions) before look after)
    (hd : look.before.shared.disabled = true) : after.countP Moment.sends = 0 := by
  obtain ⟨he, hl, -⟩ := hf
  obtain ⟨first, rest, -, -, hmeets, rfl⟩ := history_split he
  have hc : look.before.Consistent := hmeets ▸ h.after first
  have hover := over_of_look hc hl hd
  rw [List.countP_eq_zero]
  intro m hm
  have hrest : ∀ x ∈ look.after.history rest, x.accepted? = none :=
    fun x hx => hn x (by rw [he]; simp [hx])
  simp [sends_of_over (hover.moment (hc.act look.action) hrest m hm)]

/-- No more samples are sent than are allowed exactly when the first look finds the engine disabled
or comes before the end of the run anyway. -/
theorem sends_le_iff (h : c.Consistent) (hp : c.shared.pending = false)
    (hn : ∀ m ∈ c.history actions, m.accepted? = none) :
    (c.history actions).countP Moment.sends ≤ c.stage.samplesAllowed ↔
      ∀ before look after, FirstLook (c.history actions) before look after →
        look.before.shared.disabled = true ∨ after.countP Moment.sends = 0 := by
  have htotal : ∀ {before look after}, FirstLook (c.history actions) before look after →
      (c.history actions).countP Moment.sends =
        c.stage.samplesAllowed + after.countP Moment.sends := by
    intro before look after hf
    have hlook : look.sends = false := sends_of_looks hf.2.1
    rw [hf.1, List.countP_append, List.countP_cons_of_neg (by simp [hlook]),
      sends_before_look h hp hn hf]
  constructor
  · intro hle before look after hf
    have := htotal hf
    exact Or.inr (by omega)
  · intro hlooks
    rcases firstLook_or_none (c.history actions) with hl | ⟨before, look, after, hf⟩
    · exact sends_without_look h hl
    · have hz : after.countP Moment.sends = 0 := by
        rcases hlooks before look after hf with hd | hz
        · exact sends_after_look h hn hf hd
        · exact hz
      rw [htotal hf, hz]
      exact Nat.le_refl _

theorem disabled_act (h : c.Consistent) (hd : c.shared.disabled = true) {a : Action}
    (he : (Moment.mk c a).enables = false) : (c.act a).1.shared.disabled = true := by
  cases a with
  | engine => exact h.turn.frame.2.2.1.trans hd
  | request r =>
    cases r with
    | setDisabled disabled =>
      cases disabled with
      | false => cases he
      | true => rfl
    | enable => cases he
    | _ => exact hd

/-- A look that finds the engine enabled comes after somebody enabled it. -/
theorem enables_before_look (h : c.Consistent) (hd : c.shared.disabled = true)
    {before after : List Moment} {look : Moment}
    (hs : c.history actions = before ++ look :: after) (hf : look.before.shared.disabled = false) :
    ∃ m ∈ before, m.enables = true := by
  obtain ⟨first, rest, -, rfl, hmeets, -⟩ := history_split hs
  by_cases hn : ∃ m ∈ c.history first, m.enables = true
  · exact hn
  · have hkeep : (c.after first).shared.disabled = true :=
      (h.keeps (P := fun c => c.shared.disabled = true) hd fun m hm hc hd =>
        disabled_act hc hd (Bool.eq_false_iff.2 fun he => hn ⟨m, hm, he⟩)).2
    rw [hmeets, hkeep] at hf
    cases hf

/-- No run comes into hand where nothing is pending. -/
theorem run?_step (h : c.Consistent) (hp : c.shared.pending = false) {run : Run}
    (hr : c.step.1.stage.run? = some run) : c.stage.run? = some run := by
  cases h.turn with
  | halts other index reason was size finds shared now =>
    rw [now] at hr
    rw [Stage.run?_of_at? was]
    exact hr
  | _ => simp_all [Stage.run?]

/-- Where nothing is pending and no target is accepted, no run is taken up. -/
theorem no_other_run (h : c.Consistent) (hp : c.shared.pending = false)
    (hn : ∀ m ∈ c.history actions, m.accepted? = none) :
    ∀ m ∈ c.history actions, m.begun? = none ∧
      ∀ run, m.before.stage.run? = some run → c.stage.run? = some run := by
  let P (d : Controller) : Prop :=
    d.shared.pending = false ∧ ∀ run, d.stage.run? = some run → c.stage.run? = some run
  have keep : ∀ m ∈ c.history actions, m.before.Consistent → P m.before → P m.after := by
    rintro ⟨d, a⟩ hm hc ⟨hq, hd⟩
    refine ⟨pending_act hc hq (hn _ hm), fun run hr => ?_⟩
    cases a with
    | request r => exact hd run hr
    | engine => exact hd run (run?_step hc hq hr)
  have hall := (h.keeps (P := P) ⟨hp, fun _ hr => hr⟩ keep).1
  intro m hm
  refine ⟨?_, (hall m hm).2⟩
  cases hb : m.begun? with
  | none => rfl
  | some run =>
    have hpending := (Moment.begun?_eq_some (h.moment hm) hb).2.2.2.1
    rw [(hall m hm).1] at hpending
    cases hpending

/-- Disabling and enabling again leaves no trace but that nothing is pending. -/
theorem enabled_again (hd : c.shared.disabled = false) (hp : c.shared.pending = false) :
    (c.serve (.setDisabled true)).serve (.setDisabled false) = c := by
  cases c with
  | mk params converter shared stage chassis moves =>
    cases shared
    simp_all [serve, Shared.serve, Shared.setDisabled]

variable (params : Params Float) (converter : Converter Float) (chassis : Drivetrain)

/-- What a disable that no new target follows does. The run in hand stays the only one. It gets no
more samples than were past their look exactly when the engine finds itself disabled at its first
look, or sends nothing after that look anyway. A look that finds it enabled comes after somebody
enabled it; where nothing was pending, that leaves the controller as if it had never been
disabled. -/
theorem disable_ends_run_iff (actions later : List Action)
    (hn : ∀ t, Action.request (.setTarget t) ∉ later) :
    let c := (fresh params converter chassis).after actions
    let disabled := c.serve (.setDisabled true)
    let moments := disabled.history later
    (∀ m ∈ moments, m.begun? = none ∧
      ∀ run, m.before.stage.run? = some run → c.stage.run? = some run) ∧
    (moments.countP Moment.sends ≤ c.stage.samplesAllowed ↔
      ∀ before look after, FirstLook moments before look after →
        look.before.shared.disabled = true ∨ after.countP Moment.sends = 0) ∧
    (∀ before look after, FirstLook moments before look after →
      look.before.shared.disabled = false → ∃ m ∈ before, m.enables = true) ∧
    (c.shared.disabled = false → c.shared.pending = false →
      disabled.serve (.setDisabled false) = c) := by
  intro c disabled moments
  have h : disabled.Consistent :=
    ((consistent_fresh params converter chassis).after actions).serve (.setDisabled true)
  have hp : disabled.shared.pending = false := h.disabled rfl
  have ha := accepted_none (c := disabled) hn
  refine ⟨no_other_run h hp ha, sends_le_iff h hp ha, ?_, enabled_again⟩
  exact fun before look after hf => enables_before_look h rfl hf.1

def twoSamples : Path :=
  let still : Segment Binary64 := ⟨⟨0⟩, ⟨0⟩, ⟨0⟩⟩
  ⟨#[⟨still, still⟩, ⟨still, still⟩]⟩

def firstSent : List Action :=
  [.request (.register "A" twoSamples), .request (.setTarget ⟨"A", .forward⟩)] ++
    List.replicate 6 .engine

def enabledInTime : List Action := .request (.setDisabled false) :: List.replicate 4 .engine

/-- Where the second sample is sent after all, the engine has looked and found itself enabled. -/
theorem enabled_at_first_look :
    let start := fresh (.ofGeometry ⟨1.0, 1.0, 1.0⟩ ⟨1.0, 1.0⟩ 1.0) ⟨.linear, 1.0, 1.0, 1.0⟩
      (.ofLimit 1.0)
    let moments := ((start.after firstSent).serve (.setDisabled true)).history enabledInTime
    (∀ t, Action.request (.setTarget t) ∉ enabledInTime) ∧
      ¬∀ before look after, FirstLook moments before look after →
        look.before.shared.disabled = true ∨ after.countP Moment.sends = 0 := by
  have hn : ∀ t, Action.request (.setTarget t) ∉ enabledInTime := by simp [enabledInTime]
  refine ⟨hn, fun hl => ?_⟩
  have hle := (disable_ends_run_iff (.ofGeometry ⟨1.0, 1.0, 1.0⟩ ⟨1.0, 1.0⟩ 1.0)
    ⟨.linear, 1.0, 1.0, 1.0⟩ (.ofLimit 1.0) firstSent enabledInTime hn).2.1.2 hl
  exact absurd hle (Nat.not_le_of_lt Nat.zero_lt_one)

/-- Enabling in time resumes a run that a disable was to end: no sample is past its look when the
controller is disabled, and yet one more is sent. -/
theorem enabling_resumes_run :
    let start := fresh (.ofGeometry ⟨1.0, 1.0, 1.0⟩ ⟨1.0, 1.0⟩ 1.0) ⟨.linear, 1.0, 1.0, 1.0⟩
      (.ofLimit 1.0)
    let moments := ((start.after firstSent).serve (.setDisabled true)).history enabledInTime
    (start.after firstSent).stage.samplesAllowed = 0 ∧ moments.countP Moment.sends = 1 :=
  ⟨rfl, rfl⟩

end Controller

end SkidSteer
