import SkidSteer.Proofs.Control.Closing
import SkidSteer.Proofs.Control.Stints

namespace SkidSteer

/-- A run in a history: where it is taken up, and the moments that find it in hand. -/
structure Stint where
  start : Moment
  run : Run
  moments : List Moment

namespace Stint

def sent (s : Stint) : Nat := s.moments.countP Moment.sends

def ended? (s : Stint) : Option RunEnd := s.moments.findSome? Moment.ended?

def obstacles (s : Stint) : List RunEnd := s.moments.filterMap Moment.obstacle?

def told (converter : Converter Float) (s : Stint) : List (Command Float) :=
  (s.run.commands converter).take s.sent

end Stint

inductive Passage where
  | stop
  | stint (s : Stint)

namespace Passage

def told (converter : Converter Float) : Passage → List (Command Float)
  | .stop => [.stop]
  | .stint s => s.told converter

def start? : Passage → Option Moment
  | .stop => none
  | .stint s => some s.start

end Passage

/-- What a run asks for with a sample, which is negated in reverse and exchanges its sides when
mirrored. -/
def Run.asked (run : Run) (converter : Converter Float) (sample : Sample Binary64) :
    Command Float :=
  let speed (side : Segment Binary64) :=
    if run.target.options.reverse then -side.velocity.toFloat else side.velocity.toFloat
  if run.target.options.mirrored then
    .drive (converter.demand (speed sample.right)) (converter.demand (speed sample.left))
  else .drive (converter.demand (speed sample.left)) (converter.demand (speed sample.right))

theorem Run.command_eq_asked (run : Run) (converter : Converter Float) (sample : Sample Binary64) :
    run.command converter (sample.map Binary64.toFloat) = run.asked converter sample := by
  unfold Run.command Run.asked Converter.demands Sample.oriented
  cases run.target.options.reverse <;> cases run.target.options.mirrored <;> rfl

/-- What holds of a stint of a history, when `after` are the passages after it. -/
structure Stint.Fits (converter : Converter Float) (moments : List Moment) (after : List Passage)
    (s : Stint) : Prop where
  place : ∃ earlier later, moments = earlier ++ s.start :: (s.moments ++ later)
  taken : s.start.begun? = some s.run
  /-- The path is the one of the target's id at the moment the run is taken up. -/
  path : s.start.before.shared.registry.get? s.run.target.id = some s.run.path
  commands : s.run.commands converter =
    s.run.path.samples.toList.map (s.run.asked converter)
  bound : s.sent ≤ s.run.path.size
  /-- The whole path is driven exactly when no look before a sample finds anything. -/
  whole : s.ended?.isSome → (s.sent = s.run.path.size ↔ s.obstacles = [])
  broken : s.obstacles ≠ [] → s.sent < s.run.path.size
  reason : ∀ reason, s.ended? = some reason →
    s.obstacles = if reason = .complete then [] else [reason]
  last : s.ended? = none → after = []
  stopped : ∀ reason, s.ended? = some reason → reason ≠ .preempted → ∃ rest, after = .stop :: rest
  /-- After a run that gave way comes a stop or the first sample of a later run. -/
  replaced : s.ended? = some .preempted → ∀ command,
    (after.flatMap (Passage.told converter)).head? = some command → command = .stop ∨
      ∃ t, .stint t ∈ after ∧ (t.run.commands converter).head? = some command

/-- What a moment adds: its stop, and a stint where a run is taken up, which goes on for as long as
the moments after it find a run in hand. -/
def Moment.passages (m : Moment) (later : List Moment) : List Passage :=
  (m.told.filter Command.isStop).map (fun _ => .stop) ++
    match m.begun? with
    | some run => [.stint ⟨m, run, held later⟩]
    | none => []

def passages : List Moment → List Passage
  | [] => []
  | m :: rest => m.passages rest ++ passages rest

/-- Commands that are all stops are told by as many passages. -/
theorem told_stops (converter : Converter Float) {commands : List (Command Float)}
    (h : ∀ command ∈ commands, command = .stop) :
    ((commands.filter Command.isStop).map fun _ => Passage.stop).flatMap
      (Passage.told converter) = commands := by
  induction commands with
  | nil => rfl
  | cons command rest ih =>
    have hc : command = .stop := h command (List.mem_cons_self ..)
    subst hc
    exact congrArg (Command.stop :: ·) (ih fun other hm => h other (List.mem_cons_of_mem _ hm))

theorem Moment.told_passages (converter : Converter Float) {m : Moment} (hb : m.begun? = none)
    (hs : ∀ command ∈ m.told, command = .stop) (later : List Moment) :
    (m.passages later).flatMap (Passage.told converter) = m.told := by
  rw [passages, hb, List.append_nil]
  exact told_stops converter hs

theorem Moment.passages_eq_nil {m : Moment} (hb : m.begun? = none)
    (hs : ∀ command ∈ m.told, command.isStop = false) (later : List Moment) :
    m.passages later = [] := by
  have hn : m.told.filter Command.isStop = [] := by
    rw [List.filter_eq_nil_iff]
    exact fun command hm => by simp [hs command hm]
  rw [passages, hb, hn]
  rfl

namespace Controller

variable {c : Controller}

/-- What is sent in some moments of the run that goes on. -/
def ahead (c : Controller) (moments : List Moment) : List (Command Float) :=
  match c.stage.at? with
  | some (run, index) =>
    ((run.commands c.converter).drop index).take
      ((held moments).countP Moment.sends)
  | none => []

theorem ahead_of_none (h : c.stage.at? = none) (moments : List Moment) : c.ahead moments = [] := by
  simp [ahead, h]

theorem ahead_of_at {run : Run} {index : Nat} (h : c.stage.at? = some (run,index))
    (moments : List Moment) : c.ahead moments = ((run.commands c.converter).drop index).take
      ((held moments).countP Moment.sends) := by
  simp [ahead, h]

/-- A moment of a run that goes on adds what it sends to what is sent after it. -/
theorem sends_cons {run : Run} {index : Nat} (h : c.stage.at? = some (run,index)) (a : Action)
    (later : List Moment) : (held (⟨c, a⟩ :: later)).countP Moment.sends =
      (held later).countP Moment.sends +
        if (Moment.mk c a).sends then 1 else 0 := by
  rw [held_cons (inHand_of_at h a), List.countP_cons]

/-- A step of a run that goes on and sends nothing changes nothing of what is sent. -/
theorem told_going {run : Run} {index : Nat} (hbefore : c.stage.at? = some (run,index))
    (hafter : c.step.1.stage.at? = some (run,index)) (hn : (Moment.mk c .engine).sends = false)
    (hb : (Moment.mk c .engine).begun? = none) (hs : (Moment.mk c .engine).told = [])
    (later : List Moment) :
    (Moment.mk c .engine).told ++ c.step.1.ahead later =
      c.ahead (⟨c, .engine⟩ :: later) ++ ((Moment.mk c .engine).passages later).flatMap
        (Passage.told c.converter) := by
  rw [ahead_of_at hbefore, ahead_of_at hafter, sends_cons hbefore, hn, hs,
    Moment.passages_eq_nil hb (by simp [hs])]
  exact (List.append_nil _).symm

theorem told_act (h : c.Consistent) (a : Action) (rest : List Action) :
    (Moment.mk c a).told ++ (c.act a).1.ahead ((c.act a).1.history rest) =
      c.ahead (c.history (a :: rest)) ++
        ((Moment.mk c a).passages ((c.act a).1.history rest)).flatMap
          (Passage.told c.converter) := by
  have ha : c.history (a :: rest) = ⟨c, a⟩ :: (c.act a).1.history rest := rfl
  have hc : (c.act a).1.converter = c.converter := act_converter
  rw [ha]
  cases a with
  | request r =>
    have hstage : (c.act (.request r)).1.stage = c.stage := rfl
    rw [Moment.passages_eq_nil rfl (by simp), List.flatMap_nil, List.append_nil, told_request,
      List.nil_append]
    cases hat : c.stage.at? with
    | none => rw [ahead_of_none (hstage ▸ hat), ahead_of_none hat]
    | some going =>
      obtain ⟨run, index⟩ := going
      rw [ahead_of_at hat, ahead_of_at (hstage ▸ hat), sends_cons hat, hc]
      rfl
  | engine =>
    have hstep : (c.act .engine).1 = c.step.1 := rfl
    rw [hstep] at hc ⊢
    cases h.turn with
    | takes run was _ _ _ _ _ _ _ now said =>
      have hbefore : c.stage.at? = none := by rw [was]; rfl
      have hafter : c.step.1.stage.at? = some (run, 0) := by rw [now]; rfl
      have hb := begun?_engine now
      have hs : ∀ command ∈ (Moment.mk c .engine).told, command = .stop := by
        rw [said]
        split <;> simp
      rw [ahead_of_none hbefore, ahead_of_at hafter, Moment.passages, hb, List.flatMap_append,
        told_stops c.converter hs, hc, List.drop_zero, List.nil_append]
      exact congrArg _ (List.append_nil _).symm
    | completes run was shared now said =>
      have hbefore : c.stage.at? = some (run, run.path.size) := by rw [was]; rfl
      have hafter : c.step.1.stage.at? = none := by rw [now]; rfl
      have hsize : (run.commands c.converter).length ≤ run.path.size := by
        simp [Run.commands, Trajectory.size]
      rw [ahead_of_at hbefore, ahead_of_none hafter, List.drop_of_length_le hsize, List.take_nil,
        Moment.passages_eq_nil (begun?_engine_none (by simp [now])) (by simp [said]), said]
      rfl
    | halts run index reason was size finds shared now said =>
      have hafter : c.step.1.stage.at? = none := by rw [now]; rfl
      have hs := sends_of_obstacle finds
      have hn := (moments_of_ending h.step now rest).1
      rw [ahead_of_at was, ahead_of_none hafter, sends_cons was, hn, hs,
        Moment.passages_eq_nil (begun?_engine_none (by simp [now])) (by simp [said]), said]
      rfl
    | sends run index command was of shared now said =>
      have hbefore : c.stage.at? = some (run, index) := by rw [was]; rfl
      have hafter : c.step.1.stage.at? = some (run, index + 1) := by rw [now]; rfl
      have hs : (Moment.mk c .engine).sends = true := by simp [Moment.sends, was]
      have hb := begun?_engine_none (c := c) (by simp [now])
      have hdrive : command.isStop = false := run.isStop_of_mem (List.mem_of_getElem? of)
      obtain ⟨hlt, he⟩ := List.getElem?_eq_some_iff.1 of
      rw [ahead_of_at hbefore, ahead_of_at hafter, sends_cons hbefore, hs, if_pos rfl, hc, said,
        List.drop_eq_getElem_cons hlt, he, List.take_succ_cons,
        Moment.passages_eq_nil hb (by simp [said, hdrive])]
      exact (List.append_nil _).symm
    -- The other steps of a run that goes on tell nothing and take up nothing.
    | starts run was _ now said | passes run _ was _ _ _ now said | allows run _ was _ _ now said
    | readies run _ was _ _ _ now said =>
      have hb := begun?_engine_none (c := c) (by simp [now])
      exact told_going (by rw [was]; rfl) (by rw [now]; rfl) (by simp [Moment.sends, was]) hb said _
    -- Beside a run all that is told are stops, which are passages of their own.
    | _ =>
      have hbefore : c.stage.at? = none := by simp [*, Stage.at?]
      have hafter : c.step.1.stage.at? = none := by simp [*, Stage.at?]
      have hb := begun?_engine_none (c := c) (by simp [*])
      have hs : ∀ command ∈ (Moment.mk c .engine).told, command = .stop := by
        simp [*]
      rw [ahead_of_none hbefore, ahead_of_none hafter, Moment.told_passages _ hb hs,
        List.append_nil]
      rfl

/-- What the chassis is told is the rest of the run that goes on, and then the passages. -/
theorem told_history (h : c.Consistent) (actions : List Action) :
    told (c.history actions) = c.ahead (c.history actions) ++
      (passages (c.history actions)).flatMap (Passage.told c.converter) := by
  induction actions generalizing c with
  | nil =>
    unfold ahead
    split <;> simp [history, told, passages, held]
  | cons a rest ih =>
    have ht := told_act h a rest
    have hc : (c.act a).1.converter = c.converter := act_converter
    calc
      told (c.history (a :: rest)) = (Moment.mk c a).told ++ told ((c.act a).1.history rest) :=
        told_cons _ _
      _ = ((Moment.mk c a).told ++ (c.act a).1.ahead ((c.act a).1.history rest)) ++
          (passages ((c.act a).1.history rest)).flatMap (Passage.told c.converter) := by
        rw [ih (h.act a), hc, List.append_assoc]
      _ = _ := by
        rw [ht, List.append_assoc, ← List.flatMap_append]
        rfl

end Controller

/-- Each stint in the passages stands where its run is taken up, and what follows it is read off the
moments after that. -/
theorem stint_split {moments : List Moment} {before after : List Passage} {s : Stint}
    (h : passages moments = before ++ .stint s :: after) :
    ∃ earlier later, moments = earlier ++ s.start :: later ∧ s.start.begun? = some s.run ∧
      s.moments = held later ∧ after = passages later := by
  induction moments generalizing before with
  | nil => simp [passages] at h
  | cons m rest ih =>
    have hrest : ∀ {others}, passages rest = others ++ .stint s :: after →
        ∃ earlier later, m :: rest = earlier ++ s.start :: later ∧ s.start.begun? = some s.run ∧
          s.moments = held later ∧ after = passages later := by
      intro others ho
      obtain ⟨earlier, later, rfl, hb, hm, ha⟩ := ih ho
      exact ⟨m :: earlier, later, rfl, hb, hm, ha⟩
    rw [passages, Moment.passages, List.append_assoc] at h
    -- The stops of the first moment come before its stint, and none of them is the stint.
    obtain ⟨others, ho⟩ : ∃ others, (match m.begun? with
        | some run => [Passage.stint ⟨m, run, held rest⟩]
        | none => []) ++ passages rest = others ++ .stint s :: after := by
      rcases List.append_eq_append_iff.1 h with ⟨others, -, ho⟩ | ⟨others, hs, ho⟩
      · exact ⟨others, ho⟩
      · cases others with
        | nil => exact ⟨[], ho.symm⟩
        | cons p others =>
          obtain ⟨rfl, -⟩ := List.cons.inj ho
          have hm : Passage.stint s ∈ (m.told.filter Command.isStop).map fun _ => .stop := by
            simp [hs]
          obtain ⟨command, -, hc⟩ := List.mem_map.1 hm
          cases hc
    cases hb : m.begun? with
    | none =>
      rw [hb] at ho
      exact hrest ho
    | some run =>
      rw [hb] at ho
      cases others with
      | nil =>
        obtain ⟨hp, rfl⟩ := List.cons.inj ho
        cases hp
        exact ⟨[], rest, rfl, hb, rfl, rfl⟩
      | cons p others => exact hrest (List.cons.inj ho).2

/-- The stints stand in the order in which their runs are taken up. -/
theorem starts_passages (moments : List Moment) :
    (passages moments).filterMap Passage.start? = moments.filter (·.begun?.isSome) := by
  induction moments with
  | nil => rfl
  | cons m rest ih =>
    have hs : ((m.told.filter Command.isStop).map fun _ => Passage.stop).filterMap
        Passage.start? = [] := by
      rw [List.filterMap_map]
      exact List.filterMap_eq_nil_iff.2 fun _ _ => rfl
    rw [passages, Moment.passages, List.filterMap_append, List.filterMap_append, hs, ih]
    cases hb : m.begun? <;> simp [Passage.start?, hb]

/-- The first thing that passages tell is a stop or the first sample of one of their runs. -/
theorem head_told {converter : Converter Float} {l : List Passage} {command : Command Float}
    (h : (l.flatMap (Passage.told converter)).head? = some command) :
    command = .stop ∨
      ∃ s, Passage.stint s ∈ l ∧ (s.run.commands converter).head? = some command := by
  induction l with
  | nil => cases h
  | cons p rest ih =>
    cases p with
    | stop => exact Or.inl (Option.some.inj h).symm
    | stint s =>
      rw [List.flatMap_cons, List.head?_append] at h
      cases hs : (Passage.told converter (.stint s)).head? with
      | none =>
        rw [hs] at h
        rcases ih h with hc | ⟨t, ht, hc⟩
        · exact Or.inl hc
        · exact Or.inr ⟨t, List.mem_cons_of_mem _ ht, hc⟩
      | some first =>
        rw [hs] at h
        obtain rfl := Option.some.inj h
        refine Or.inr ⟨s, List.mem_cons_self .., ?_⟩
        simp only [Passage.told, Stint.told, List.head?_take] at hs
        split at hs
        · cases hs
        · exact hs

namespace Controller

variable {c : Controller}

/-- What comes of some moments that find a run in hand: nothing until it ends, and where it ends
without giving way a stop. -/
def Follows (moments : List Moment) : Prop :=
  ((held moments).findSome? Moment.ended? = none → passages moments = []) ∧
    ∀ reason, (held moments).findSome? Moment.ended? = some reason →
      reason ≠ .preempted → ∃ after, passages moments = .stop :: after

theorem Follows.cons {m : Moment} {later : List Moment} (h : Follows later) (hin : m.inHand = true)
    (he : m.ended? = none) (hp : m.passages later = []) : Follows (m :: later) := by
  unfold Follows
  rw [held_cons hin, List.findSome?_cons_of_isNone (by simp [he]), passages, hp]
  exact h

theorem Follows.of_ended {m : Moment} {later : List Moment} {reason : RunEnd}
    (hin : m.inHand = true) (he : m.ended? = some reason)
    (hs : reason ≠ .preempted → m.passages later = [.stop]) : Follows (m :: later) := by
  unfold Follows
  rw [held_cons hin, List.findSome?_cons_of_isSome (by simp [he]), he, passages]
  refine ⟨nofun, fun other ho hne => ?_⟩
  obtain rfl := Option.some.inj ho
  exact ⟨passages later, by rw [hs hne]; rfl⟩

theorem follows_in_hand (h : c.Consistent) {run : Run} (hr : c.stage.run? = some run)
    (actions : List Action) : Follows (c.history actions) := by
  induction actions generalizing c with
  | nil => exact ⟨fun _ => rfl, fun reason he => by cases he⟩
  | cons a rest ih =>
    have hin : (Moment.mk c a).inHand = true := by simp [Moment.inHand, hr]
    cases a with
    | request r => exact (ih (h.serve r) hr).cons hin rfl rfl
    | engine =>
      cases h.turn with
      -- A run in hand is given up in two ways: it gives way in silence, or it ends with a stop.
      | yields other was shared now said =>
        have he : (Moment.mk c .engine).ended? = some .preempted := by simp [Moment.ended?, was]
        exact .of_ended hin he fun hn => absurd rfl hn
      | ends other reason was _ shared now said =>
        have he : (Moment.mk c .engine).ended? = some reason := by simp [Moment.ended?, was]
        refine .of_ended hin he fun _ => ?_
        rw [Moment.passages, said, begun?_engine_none (by simp [now])]
        rfl
      | sends other index command was of shared now said =>
        have hdrive : command.isStop = false := other.isStop_of_mem (List.mem_of_getElem? of)
        have hn : c.step.1.stage.run? = some run := by rw [now, ← hr, was]; rfl
        exact (ih h.step hn).cons hin (by simp [Moment.ended?, was])
          (Moment.passages_eq_nil (begun?_engine_none (by simp [now])) (by simp [said, hdrive]) _)
      | halts other index reason was _ finds _ now said =>
        have hn : c.step.1.stage.run? = some run := by rw [now, ← hr, Stage.run?_of_at? was]; rfl
        exact (ih h.step hn).cons hin (ended?_of_at was .engine)
          (Moment.passages_eq_nil (begun?_engine_none (by simp [now])) (by simp [said]) _)
      | starts other was _ now said | completes other was _ now said
      | passes other _ was _ _ _ now said | allows other _ was _ _ now said
      | readies other _ was _ _ _ now said =>
        have hn : c.step.1.stage.run? = some run := by rw [now, ← hr, was]; rfl
        exact (ih h.step hn).cons hin (by simp [Moment.ended?, was])
          (Moment.passages_eq_nil (begun?_engine_none (by simp [now])) (by simp [said]) _)
      | _ => simp_all [Stage.run?]

theorem stint_fits (h : c.Consistent) {actions : List Action} {before after : List Passage}
    {s : Stint} (hs : passages (c.history actions) = before ++ .stint s :: after) :
    s.Fits c.converter (c.history actions) after := by
  obtain ⟨earlier, later, hsplit, hb, hm, rfl⟩ := stint_split hs
  obtain ⟨first, rest, -, -, hmeets, rfl⟩ := history_split hsplit
  have hc : s.start.before.Consistent := hmeets ▸ h.after first
  have hnext : s.start.after.Consistent := hc.act s.start.action
  have hstage : s.start.after.stage = .starting s.run := Moment.stage_of_begun hb
  have hat : s.start.after.stage.at? = some (s.run, 0) := by rw [hstage]; rfl
  have hcomes := comes_of_at hnext hat rest
  have hfollows := follows_in_hand hnext (Stage.run?_of_at? hat) rest
  unfold Comes at hcomes
  unfold Follows at hfollows
  rw [← hm, Nat.zero_add] at hcomes
  rw [← hm] at hfollows
  refine ⟨?_, hb, (Moment.begun?_eq_some hc hb).2.2.2.2.2.2.1, ?_, ?_, ?_, ?_, ?_, hfollows.1,
    hfollows.2, fun _ _ => head_told⟩
  · refine ⟨earlier, (s.start.after.history rest).dropWhile Moment.inHand, ?_⟩
    rw [hm, held, List.takeWhile_append_dropWhile]
    exact hsplit
  · exact List.map_congr_left fun sample _ => s.run.command_eq_asked c.converter sample
  · exact hcomes.sent_le
  · exact hcomes.whole_iff
  · exact hcomes.sent_lt
  · exact fun reason => hcomes.found_eq

variable (params : Params Float) (converter : Converter Float) (chassis : Drivetrain)

/-- The whole log of commands is runs and stops. What the chassis is told is what the passages tell,
in the order in which the runs were taken up; each stint is a prefix of what the path of its target
asked for when it was taken up, all of it unless a look before a sample found something in the way,
and a stop comes next unless the run gave way to another. After a shutdown one sample more is sent
at the most, and the engine finishes with a stop and falls silent. -/
theorem log_is_stints_and_stops (actions : List Action) :
    let start := fresh params converter chassis
    let moments := start.history actions
    told moments = (passages moments).flatMap (Passage.told converter) ∧
    (passages moments).filterMap Passage.start? = moments.filter (·.begun?.isSome) ∧
    (∀ before s after, passages moments = before ++ .stint s :: after →
      s.Fits converter moments after) ∧
    (∀ earlier later, actions = earlier ++ .request .shutDown :: later →
      (told (((start.after earlier).serve .shutDown).history later)).countP (!·.isStop) ≤ 1 ∧
      (8 ≤ (((start.after earlier).serve .shutDown).history later).countP Moment.isStep →
        (start.after actions).stage = .finished)) ∧
    ((start.after actions).stage = .finished → (told moments).getLast? = some .stop ∧
      ∀ later, told ((start.after actions).history later) = []) := by
  have h := consistent_fresh params converter chassis
  refine ⟨told_history h actions, starts_passages _, ?_, ?_, ?_⟩
  · exact fun before s after hs => stint_fits h hs
  · rintro earlier later rfl
    have hc := (h.after earlier).serve .shutDown
    obtain ⟨hf, hn⟩ := shutDown_history hc rfl later
    have hp : ((fresh params converter chassis).after earlier).stage.samplesPast ≤ 1 := by
      cases ((fresh params converter chassis).after earlier).stage <;> simp [Stage.samplesPast]
    have hu : ((fresh params converter chassis).after earlier).stage.untilFinished ≤ 8 := by
      cases ((fresh params converter chassis).after earlier).stage <;> simp [Stage.untilFinished]
    refine ⟨Nat.le_trans hn hp, fun h8 => ?_⟩
    rw [after_append]
    apply Stage.finished_of_untilFinished
    change _ ≤ ((fresh params converter chassis).after earlier).stage.untilFinished - _ at hf
    exact Nat.le_zero.1 (Nat.le_trans hf (by omega))
  · intro hf
    refine ⟨told_of_finished h (by simp [fresh]) actions hf, ?_⟩
    exact told_after_finished (h.after actions) hf

end Controller

end SkidSteer
