import SkidSteer.Proofs.Control.Turns

namespace SkidSteer

def held (moments : List Moment) : List Moment := moments.takeWhile Moment.inHand

theorem held_cons {m : Moment} (h : m.inHand = true) (rest : List Moment) :
    held (m :: rest) = m :: held rest :=
  List.takeWhile_cons_of_pos h

/-- How far the engine gets with a run of `size` samples. `last` holds when the history ends with
the run in hand. -/
inductive Extent (size sent : Nat) (found : List RunEnd) (ended : Option RunEnd) (last : Prop) :
    Prop where
  | going (last : last) (size : sent ≤ size) (found : found = []) (ended : ended = none)
  | completed (size : sent = size) (found : found = [])
      (ended : ended = some .complete ∨ last ∧ ended = none)
  | stopped (reason : RunEnd) (size : sent < size) (other : reason ≠ .complete)
      (found : found = [reason]) (ended : ended = some reason ∨ last ∧ ended = none)

namespace Extent

variable {size sent : Nat} {found : List RunEnd} {ended : Option RunEnd} {last : Prop}

theorem sent_le (h : Extent size sent found ended last) : sent ≤ size := by
  cases h with
  | going _ size => exact size
  | completed size => exact Nat.le_of_eq size
  | stopped _ size => exact Nat.le_of_lt size

theorem whole_iff (h : Extent size sent found ended last) (he : ended.isSome) :
    sent = size ↔ found = [] := by
  cases h with
  | going _ _ _ ended => simp [ended] at he
  | completed size found => exact ⟨fun _ => found, fun _ => size⟩
  | stopped _ size _ found =>
    refine ⟨fun hs => absurd hs (Nat.ne_of_lt size), fun hn => ?_⟩
    rw [found] at hn
    cases hn

theorem sent_lt (h : Extent size sent found ended last) (hf : found ≠ []) : sent < size := by
  cases h with
  | going _ _ found => exact absurd found hf
  | completed _ found => exact absurd found hf
  | stopped _ size => exact size

theorem found_eq (h : Extent size sent found ended last) {reason : RunEnd}
    (he : ended = some reason) : found = if reason = .complete then [] else [reason] := by
  cases h with
  | going _ _ _ none => simp [none] at he
  | completed _ found complete =>
    rcases complete with complete | ⟨-, none⟩
    · obtain rfl := Option.some.inj (he.symm.trans complete)
      exact found
    · simp [none] at he
  | stopped other _ hne found stopped =>
    rcases stopped with stopped | ⟨-, none⟩
    · obtain rfl := Option.some.inj (he.symm.trans stopped)
      rw [found, if_neg hne]
    · simp [none] at he

end Extent

namespace Controller

variable {c : Controller}

theorem held_of_none (h : c.stage.run? = none) (actions : List Action) :
    held (c.history actions) = [] := by
  cases actions with
  | nil => rfl
  | cons a rest => exact List.takeWhile_cons_of_neg (by simp [Moment.inHand, h])

/-- A run that is about to end sends nothing and finds nothing, and ends if the engine goes on. -/
theorem moments_of_ending (h : c.Consistent) {run : Run} {reason : RunEnd}
    (was : c.stage = .ending run reason) (actions : List Action) :
    (held (c.history actions)).countP Moment.sends = 0 ∧
      (held (c.history actions)).filterMap Moment.obstacle? = [] ∧
      ((held (c.history actions)).findSome? Moment.ended? = some reason ∨
        held (c.history actions) = c.history actions ∧
          (held (c.history actions)).findSome? Moment.ended? = none) := by
  induction actions generalizing c with
  | nil => exact ⟨rfl, rfl, Or.inr ⟨rfl, rfl⟩⟩
  | cons a rest ih =>
    have hin : (Moment.mk c a).inHand = true := by simp [Moment.inHand, was, Stage.run?]
    have hs : (Moment.mk c a).sends = false := by cases a <;> simp [Moment.sends, was]
    have ho : (Moment.mk c a).obstacle? = none := by
      cases a <;> simp [Moment.obstacle?, was, Stage.obstacle?]
    rw [history, held_cons hin, List.countP_cons_of_neg (by simp [hs]),
      List.filterMap_cons_none ho]
    cases a with
    | request r =>
      obtain ⟨hsent, hfound, hends⟩ := ih (h.serve r) was
      refine ⟨hsent, hfound, ?_⟩
      rw [List.findSome?_cons_of_isNone (by simp [Moment.ended?]), List.cons.injEq]
      exact hends.imp id fun hl => ⟨⟨rfl, hl.1⟩, hl.2⟩
    | engine =>
      have hn : c.step.1.stage.run? = none := by cases h.turn <;> simp_all [Stage.run?, Stage.at?]
      have he : (Moment.mk c .engine).ended? = some reason := by simp [Moment.ended?, was]
      have ht : held ((c.act .engine).1.history rest) = [] :=
        held_of_none hn rest
      rw [ht, List.findSome?_cons_of_isSome (by simp [he])]
      exact ⟨rfl, rfl, Or.inl he⟩

/-- What the moments that find a run in hand come to, when `index` samples were sent before. -/
def Comes (run : Run) (index : Nat) (moments : List Moment) : Prop :=
  Extent run.path.size (index + (held moments).countP Moment.sends)
    ((held moments).filterMap Moment.obstacle?)
    ((held moments).findSome? Moment.ended?)
    (held moments = moments)

/-- A moment that finds nothing in the way and ends nothing. -/
theorem Comes.cons {run : Run} {index next : Nat} {m : Moment} {later : List Moment}
    (h : Comes run next later) (hin : m.inHand = true) (ho : m.obstacle? = none)
    (he : m.ended? = none) (hs : next = index + if m.sends then 1 else 0) :
    Comes run index (m :: later) := by
  unfold Comes at h ⊢
  rw [held_cons hin, List.countP_cons, List.filterMap_cons_none ho,
    List.findSome?_cons_of_isNone (by simp [he]), List.cons.injEq, eq_self_iff_true, true_and,
    Nat.add_comm _ (if m.sends then 1 else 0), ← Nat.add_assoc, ← hs]
  exact h

/-- Nothing in the way of a sample is ever the end of the path. -/
theorem obstacle_ne_complete {s : Shared} {stage : Stage} {reason : RunEnd}
    (h : stage.obstacle? s = some reason) : reason ≠ .complete := by
  rintro rfl
  unfold Stage.obstacle? at h
  repeat' split at h
  all_goals cases h

theorem index_le (h : c.Consistent) {run : Run} {index : Nat}
    (hat : c.stage.at? = some (run,index)) : index ≤ run.path.size := by
  have hw := h.within
  cases hs : c.stage with
  | starting _ =>
    rw [hs] at hat
    cases hat
    exact Nat.zero_le _
  | sample _ _ =>
    rw [hs] at hat hw
    cases hat
    exact hw
  | enabled _ _ | requests _ _ | sending _ _ =>
    rw [hs] at hat hw
    cases hat
    exact Nat.le_of_lt hw
  | _ => simp_all [Stage.at?]

theorem comes_of_at (h : c.Consistent) {run : Run} {index : Nat}
    (hat : c.stage.at? = some (run,index)) (actions : List Action) :
    Comes run index (c.history actions) := by
  induction actions generalizing c index with
  | nil => exact .going rfl (index_le h hat) rfl rfl
  | cons a rest ih =>
    have hin := inHand_of_at hat a
    cases a with
    | request r => exact (ih (h.serve r) hat).cons hin rfl rfl rfl
    | engine =>
      have he := ended?_of_at hat .engine
      -- Every step but those to an end leaves the run going on.
      have hgoes : ∀ next, c.step.1.stage.at? = some (run,next) →
          c.stage.obstacle? c.shared = none →
          next = index + (if (Moment.mk c .engine).sends then 1 else 0) →
          Comes run index (c.history (.engine :: rest)) :=
        fun next hn ho hs => (ih h.step hn).cons hin ho he hs
      cases h.turn with
      | starts other was _ now | passes other i was _ _ _ now | allows other i was _ _ now
      | readies other i was _ _ _ now | sends other i _ was _ _ now =>
        rw [was] at hat
        cases hat
        refine hgoes _ (by rw [now]; rfl) ?_ (by simp [Moment.sends, was])
        simp [Stage.obstacle?, *]
      | completes other was _ now =>
        rw [was] at hat
        cases hat
        obtain ⟨hs, hf, hends⟩ := moments_of_ending h.step now rest
        have hc : Comes run run.path.size (c.step.1.history rest) :=
          .completed (by rw [hs, Nat.add_zero]) hf hends
        exact hc.cons hin (by simp [Moment.obstacle?, was, Stage.obstacle?]) he
          (by simp [Moment.sends, was])
      | halts other i reason was size finds _ now =>
        rw [was] at hat
        cases hat
        obtain ⟨hs, hf, hends⟩ := moments_of_ending h.step now rest
        have hn := sends_of_obstacle finds
        have ho : (Moment.mk c .engine).obstacle? = some reason := finds
        have hlater : (c.act .engine).1.history rest = c.step.1.history rest := rfl
        unfold Comes
        rw [history, held_cons hin, hlater, List.countP_cons_of_neg (by simp [hn]),
          List.filterMap_cons_some ho, hf, hs,
          List.findSome?_cons_of_isNone (by simp [he]), List.cons.injEq, eq_self_iff_true, true_and]
        exact .stopped reason size (obstacle_ne_complete finds) rfl hends
      | _ => simp_all [Stage.at?]

end Controller

end SkidSteer
