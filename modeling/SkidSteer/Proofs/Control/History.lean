import SkidSteer.Control.Controller

namespace SkidSteer

/-- What happens next: some caller's request, or a step of the engine. -/
inductive Action where
  | request (r : Request)
  | engine

def Output.command? : Output → Option (Command Float)
  | .notice _ => none
  | .command c => some c

namespace Stage

/-- The run that the engine has in hand, from when it is taken up until it has ended. -/
def run? : Stage → Option Run
  | .starting run | .sample run _ | .enabled run _ | .requests run _ | .sending run _ |
    .ending run _ => some run
  | _ => none

/-- The run that goes on, with the number of its samples that were sent. -/
def at? : Stage → Option (Run × Nat)
  | .starting run => some (run, 0)
  | .sample run index | .enabled run index | .requests run index | .sending run index =>
    some (run, index)
  | _ => none

/-- What ends a run, when a look before a sample finds it. -/
def obstacle? (s : Shared) : Stage → Option RunEnd
  | .sample run index => if index < run.path.size ∧ s.shutDown then some .shutdown else none
  | .enabled _ _ => if s.disabled then some .disabled else none
  | .requests run _ =>
    if s.cancelRequests ≠ run.ticket then some .cancelled
    else if s.pending then some .preempted
    else none
  | _ => none

theorem run?_of_at? {stage : Stage} {run : Run} {index : Nat} (h : stage.at? = some (run,index)) :
    stage.run? = some run := by
  cases stage <;> simp_all [at?, run?]

end Stage

def Run.commands (run : Run) (converter : Converter Float) : List (Command Float) :=
  run.path.samples.toList.map fun sample => run.command converter (sample.map Binary64.toFloat)

namespace Controller

/-- A controller whose engine has yet to look for work. -/
def fresh (params : Params Float) (converter : Converter Float) (chassis : Drivetrain) :
    Controller :=
  ⟨params, converter, .initial, .idle, chassis, 0⟩

def act (c : Controller) : Action → Controller × List Output
  | .request r => (c.serve r, [])
  | .engine => c.step

def after (c : Controller) : List Action → Controller
  | [] => c
  | a :: rest => (c.act a).1.after rest

end Controller

/-- An action, and the controller that it was taken on. -/
structure Moment where
  before : Controller
  action : Action

namespace Moment

def after (m : Moment) : Controller := (m.before.act m.action).1

def isStep (m : Moment) : Bool :=
  match m.action with
  | .engine => true
  | .request _ => false

def told (m : Moment) : List (Command Float) :=
  (m.before.act m.action).2.filterMap Output.command?

def begun? (m : Moment) : Option Run :=
  match m.action, m.after.stage with
  | .engine, .starting run => some run
  | _, _ => none

def ended? (m : Moment) : Option RunEnd :=
  match m.action, m.before.stage with
  | .engine, .ending _ reason => some reason
  | _, _ => none

def obstacle? (m : Moment) : Option RunEnd :=
  match m.action with
  | .engine => m.before.stage.obstacle? m.before.shared
  | .request _ => none

def sends (m : Moment) : Bool :=
  match m.action, m.before.stage with
  | .engine, .sending _ _ => true
  | _, _ => false

def inHand (m : Moment) : Bool := m.before.stage.run?.isSome

def accepted? (m : Moment) : Option Target :=
  match m.action with
  | .request (.setTarget t) => if m.before.shared.accepts t then some t else none
  | _ => none

end Moment

def told (moments : List Moment) : List (Command Float) := moments.flatMap Moment.told

namespace Controller

def history (c : Controller) : List Action → List Moment
  | [] => []
  | a :: rest => ⟨c, a⟩ :: (c.act a).1.history rest

variable {c : Controller} {a : Action} {actions later : List Action}

theorem after_append : c.after (actions ++ later) = (c.after actions).after later := by
  induction actions generalizing c with
  | nil => rfl
  | cons a rest ih => exact ih

theorem history_append :
    c.history (actions ++ later) = c.history actions ++ (c.after actions).history later := by
  induction actions generalizing c with
  | nil => rfl
  | cons a rest ih => exact congrArg (_ :: ·) ih

/-- Each moment of a history is met by what the actions before it lead to. -/
theorem history_split {earlier rest : List Moment} {m : Moment}
    (h : c.history actions = earlier ++ m :: rest) :
    ∃ before between, actions = before ++ m.action :: between ∧ c.history before = earlier ∧
      m.before = c.after before ∧ m.after.history between = rest := by
  induction actions generalizing c earlier with
  | nil => simp [history] at h
  | cons a others ih =>
    cases earlier with
    | nil =>
      simp only [history, List.nil_append, List.cons.injEq] at h
      obtain ⟨rfl, rfl⟩ := h
      exact ⟨[], others, rfl, rfl, rfl, rfl⟩
    | cons first earlier =>
      simp only [history, List.cons_append, List.cons.injEq] at h
      obtain ⟨rfl, h⟩ := h
      obtain ⟨before, between, rfl, rfl, hb, hr⟩ := ih h
      exact ⟨a :: before, between, rfl, rfl, hb, hr⟩

theorem action_mem {m : Moment} (hm : m ∈ c.history actions) : m.action ∈ actions := by
  obtain ⟨earlier, later, hs⟩ := List.append_of_mem hm
  obtain ⟨before, between, rfl, -⟩ := history_split hs
  simp

theorem act_converter : (c.act a).1.converter = c.converter := by
  cases a <;> rfl

theorem after_converter : (c.after actions).converter = c.converter := by
  induction actions generalizing c with
  | nil => rfl
  | cons a rest ih => exact ih.trans act_converter

theorem after_params : (c.after actions).params = c.params := by
  induction actions generalizing c with
  | nil => rfl
  | cons a rest ih =>
    refine ih.trans ?_
    cases a <;> rfl

theorem moment_converter {m : Moment} (hm : m ∈ c.history actions) :
    m.before.converter = c.converter := by
  obtain ⟨earlier, later, hs⟩ := List.append_of_mem hm
  obtain ⟨before, between, -, -, hb, -⟩ := history_split hs
  rw [hb]
  exact after_converter

end Controller

theorem told_cons (m : Moment) (rest : List Moment) : told (m :: rest) = m.told ++ told rest :=
  List.flatMap_cons

theorem told_singleton (m : Moment) : told [m] = m.told := List.append_nil _

theorem told_append (first second : List Moment) :
    told (first ++ second) = told first ++ told second :=
  List.flatMap_append

@[simp] theorem told_request (c : Controller) (r : Request) :
    (Moment.mk c (.request r)).told = [] := rfl

theorem Moment.stage_of_begun {m : Moment} {run : Run} (h : m.begun? = some run) :
    m.after.stage = .starting run := by
  unfold begun? at h
  split at h
  · rename_i hs
    cases h
    exact hs
  · cases h

theorem Moment.sending_of_sends {m : Moment} (h : m.sends = true) :
    ∃ run index, m.before.stage = .sending run index := by
  unfold sends at h
  split at h
  · rename_i run index _ hs
    exact ⟨run, index, hs⟩
  · cases h

theorem Drivetrain.foldl_receive (outputs : List Output) (d : Drivetrain) :
    outputs.foldl Controller.receive d =
      (outputs.filterMap Output.command?).foldl Drivetrain.apply d := by
  induction outputs generalizing d with
  | nil => rfl
  | cons o rest ih => cases o <;> exact ih _

namespace Controller

variable {c : Controller}

theorem begun?_engine {run : Run} (h : c.step.1.stage = .starting run) :
    (Moment.mk c .engine).begun? = some run := by
  simp [Moment.begun?, Moment.after, act, h]

theorem begun?_engine_none (h : ∀ run, c.step.1.stage ≠ .starting run) :
    (Moment.mk c .engine).begun? = none := by
  unfold Moment.begun?
  split
  · rename_i run _ hr
    exact absurd hr (h run)
  · rfl

/-- Where a look finds something in the way, no sample is sent. -/
theorem sends_of_obstacle {reason : RunEnd} (h : c.stage.obstacle? c.shared = some reason) :
    (Moment.mk c .engine).sends = false := by
  rw [Bool.eq_false_iff]
  intro hs
  obtain ⟨run, index, was⟩ := Moment.sending_of_sends hs
  change c.stage = .sending run index at was
  rw [was] at h
  cases h

theorem inHand_of_at {run : Run} {index : Nat} (h : c.stage.at? = some (run,index)) (a : Action) :
    (Moment.mk c a).inHand = true := by
  simp [Moment.inHand, Stage.run?_of_at? h]

theorem ended?_of_at {run : Run} {index : Nat} (h : c.stage.at? = some (run,index)) (a : Action) :
    (Moment.mk c a).ended? = none := by
  unfold Moment.ended?
  split
  · rename_i was
    change c.stage = .ending _ _ at was
    rw [was] at h
    cases h
  · rfl

theorem act_chassis (c : Controller) (a : Action) :
    (c.act a).1.chassis = (Moment.mk c a).told.foldl Drivetrain.apply c.chassis := by
  cases a with
  | request r => rfl
  | engine => exact Drivetrain.foldl_receive _ _

/-- The motors have been told what the history said, and nothing else. -/
theorem chassis_after (c : Controller) (actions : List Action) :
    (c.after actions).chassis = (told (c.history actions)).foldl Drivetrain.apply c.chassis := by
  induction actions generalizing c with
  | nil => rfl
  | cons a rest ih =>
    change ((c.act a).1.after rest).chassis = _
    rw [ih, act_chassis]
    simp [history, told, List.foldl_append]

end Controller

end SkidSteer
