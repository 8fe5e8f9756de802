import SkidSteer.Proofs.Control.History
import SkidSteer.Proofs.Registry.History

namespace SkidSteer

open Storage

/-- A call that can fail, with the files or streams that it finds. -/
inductive FallibleCall where
  | generate (waypoints : List (Waypoint Float)) (id : String)
  | generateWithin (waypoints : List (Waypoint Float)) (id : String) (limits : Limits Float)
  | load (fs : FileSystem) (directory id : String)
  | loadFrom (id : String) (left right : Source)
  | store (fs : FileSystem) (directory id : String)
  | storeTo (id : String) (left right : Sink)
  | moveTo (waypoints : List (Waypoint Float)) (options : RunOptions)

structure Attempted where
  result : Except ControlError Unit
  controller : Controller
  outputs : List Output

namespace Controller

def withMoves (c : Controller) (moves : Nat) : Controller := { c with moves }

def planned? (c : Controller) (waypoints : List (Waypoint Float)) (limits : Limits Float) :
    Option Path :=
  (c.planner.plan waypoints limits).toOption.map fun plan => plan.trajectory.map Binary64.ofFloat

def decoded? (left right : Source) : Option Path := (decode left right).1.toOption

def stored? (c : Controller) (fs : FileSystem) (directory id : String) : Option Path :=
  match fs.openSource (c.files directory id).left, fs.openSource (c.files directory id).right with
  | .ok left, .ok right => decoded? left right
  | _, _ => none

end Controller

namespace FallibleCall

/-- The call is one for a path to be planned or read, and registered. -/
def seeks : FallibleCall → Bool
  | .generate _ _ | .generateWithin _ _ _ | .load _ _ _ | .loadFrom _ _ _ => true
  | .store _ _ _ | .storeTo _ _ _ | .moveTo _ _ => false

/-- The path that the call plans or reads, with the id to register it under. -/
def found? (c : Controller) : FallibleCall → Option (String × Path)
  | .generate waypoints id => (c.planned? waypoints c.params.limits).map (id, ·)
  | .generateWithin waypoints id limits => (c.planned? waypoints limits).map (id, ·)
  | .load fs directory id => (c.stored? fs directory id).map (id, ·)
  | .loadFrom id left right => (Controller.decoded? left right).map (id, ·)
  | .store _ _ _ | .storeTo _ _ _ | .moveTo _ _ => none

def moves : FallibleCall → Nat
  | .moveTo _ _ => 1
  | _ => 0

end FallibleCall

namespace Controller

variable {c : Controller}

def attempt (c : Controller) : FallibleCall → Attempted
  | .generate waypoints id =>
    let (result, d, notices) := c.generate waypoints id c.params.limits
    ⟨result, d, notices.map .notice⟩
  | .generateWithin waypoints id limits =>
    let (result, d, notices) := c.generate waypoints id limits
    ⟨result, d, notices.map .notice⟩
  | .load fs directory id =>
    let (result, d, notices) := c.load fs directory id
    ⟨result, d, notices.map .notice⟩
  | .loadFrom id left right =>
    let (result, d, notices) := c.loadFrom id left right
    ⟨result, d, notices.map .notice⟩
  | .store fs directory id =>
    let (result, _, notices) := c.store fs directory id
    ⟨result, c, notices.map .notice⟩
  | .storeTo id left right =>
    let (result, _, _, notices) := c.storeTo id left right
    ⟨result, c, notices.map .notice⟩
  | .moveTo waypoints options =>
    let (result, d, notices, outputs) := c.moveTo waypoints options
    ⟨result, d, notices.map .notice ++ outputs⟩

theorem act_withMoves (c : Controller) (moves : Nat) (a : Action) :
    (c.withMoves moves).act a = ((c.act a).1.withMoves moves, (c.act a).2) := by
  cases a <;> rfl

theorem after_withMoves (c : Controller) (moves : Nat) (later : List Action) :
    (c.withMoves moves).after later = (c.after later).withMoves moves := by
  induction later generalizing c with
  | nil => rfl
  | cons a rest ih =>
    rw [Controller.after, Controller.after, act_withMoves]
    exact ih _

theorem told_withMoves (c : Controller) (moves : Nat) (later : List Action) :
    told ((c.withMoves moves).history later) = told (c.history later) := by
  induction later generalizing c with
  | nil => rfl
  | cons a rest ih =>
    have hsame : (Moment.mk (c.withMoves moves) a).told = (Moment.mk c a).told := by
      rw [Moment.told, act_withMoves]
      rfl
    rw [history, history, told_cons, told_cons, act_withMoves, ih, hsame]

theorem serve_register_of_isEmpty {id : String} {path : Path} (h : path.isEmpty = true) :
    c.serve (.register id path) = c := by
  rw [serve, Shared.serve, Registry.insert_of_isEmpty h]

/-- A call registers the path that it finds, and fails when it finds none. -/
structure Registers (c : Controller) (found : Option (String × Path)) (o : Attempted) : Prop where
  finds : ∀ id path, found = some (id, path) →
    o.result = .ok () ∧ o.controller = c.serve (.register id path)
  fails : found = none → (∃ error, o.result = .error error) ∧ o.controller = c
  silent : o.outputs.filterMap Output.command? = []

theorem filterMap_notices (notices : List Notice) :
    (notices.map Output.notice).filterMap Output.command? = [] := by
  rw [List.filterMap_map]
  exact List.filterMap_eq_nil_iff.2 fun _ _ => rfl

/-- What is registered or fails after a search does what the search says. -/
theorem registers_of_search {ε α : Type} {id : String} {o : Attempted} (search : Except ε α)
    (path : α → Path)
    (ok : ∀ a, search = .ok a →
      o.result = .ok () ∧ o.controller = c.serve (.register id (path a)))
    (error : ∀ e, search = .error e → (∃ error, o.result = .error error) ∧ o.controller = c)
    (silent : o.outputs.filterMap Output.command? = []) :
    Registers c ((search.toOption.map path).map (id, ·)) o := by
  cases search with
  | error e => exact ⟨nofun, fun _ => error e rfl, silent⟩
  | ok a =>
    refine ⟨fun other found hf => ?_, nofun, silent⟩
    obtain ⟨rfl, rfl⟩ := Prod.mk.inj (Option.some.inj hf)
    exact ok a rfl

theorem registers_generate (waypoints : List (Waypoint Float)) (id : String)
    (limits : Limits Float) :
    Registers c ((c.planned? waypoints limits).map (id, ·))
      (c.attempt (.generateWithin waypoints id limits)) := by
  refine registers_of_search (c.planner.plan waypoints limits) _ ?_ ?_ (filterMap_notices _)
  · intro plan hplan
    simp [attempt, generate, hplan, register]
  · intro e hplan
    simp [attempt, generate, hplan]

theorem registers_loadFrom (id : String) (left right : Source) :
    Registers c ((decoded? left right).map (id, ·)) (c.attempt (.loadFrom id left right)) := by
  have hall : decoded? left right = (decode left right).1.toOption.map fun path => path :=
    Option.map_id'.symm
  rw [hall]
  refine registers_of_search (decode left right).1 _ ?_ ?_ (filterMap_notices _)
  · intro path hread
    have he : decode left right = (.ok path, (decode left right).2) := Prod.ext hread rfl
    rw [attempt, loadFrom, he]
    exact ⟨rfl, rfl⟩
  · intro e hread
    have he : decode left right = (.error e, (decode left right).2) := Prod.ext hread rfl
    rw [attempt, loadFrom, he]
    exact ⟨⟨_, rfl⟩, rfl⟩

theorem registers_load (fs : FileSystem) (directory id : String) :
    Registers c ((c.stored? fs directory id).map (id, ·)) (c.attempt (.load fs directory id)) := by
  cases hleft : fs.openSource (c.files directory id).left with
  | error kind =>
    have hnone : c.stored? fs directory id = none := by simp [stored?, hleft]
    rw [hnone]
    exact ⟨nofun, fun _ => by simp [attempt, load, openFile, hleft], filterMap_notices _⟩
  | ok left =>
    cases hright : fs.openSource (c.files directory id).right with
    | error kind =>
      have hnone : c.stored? fs directory id = none := by simp [stored?, hleft, hright]
      rw [hnone]
      exact ⟨nofun, fun _ => by simp [attempt, load, openFile, hleft, hright], filterMap_notices _⟩
    | ok right =>
      have hfound : c.stored? fs directory id = decoded? left right := by
        simp [stored?, hleft, hright]
      have hsame : c.attempt (.load fs directory id) = c.attempt (.loadFrom id left right) := by
        simp [attempt, load, openFile, hleft, hright]
      rw [hfound, hsame]
      exact registers_loadFrom id left right

/-- Each call for a path to be planned or read registers it, or fails. -/
theorem registers_of_seeks {call : FallibleCall} (h : call.seeks = true) :
    Registers c (call.found? c) (c.attempt call) := by
  cases call with
  | generate waypoints id => exact registers_generate waypoints id c.params.limits
  | generateWithin waypoints id limits => exact registers_generate waypoints id limits
  | load fs directory id => exact registers_load fs directory id
  | loadFrom id left right => exact registers_loadFrom id left right
  | store | storeTo | moveTo => cases h

/-- What is planned or read does not depend on anything that others do meanwhile. -/
theorem found?_after (call : FallibleCall) (c : Controller) (actions : List Action) :
    call.found? (c.after actions) = call.found? c := by
  have hp : (c.after actions).params = c.params := after_params
  cases call <;> simp only [FallibleCall.found?, planned?, stored?, planner, files, hp]

/-- The call fails, or what it finds is empty. -/
def ComesToNothing (c : Controller) (call : FallibleCall) : Prop :=
  (∃ error, (c.attempt call).result = .error error) ∨
    ∃ id path, call.found? c = some (id, path) ∧ path.isEmpty = true

/-- How a call that counts as so many moves leaves the controller when it leaves all else alone. -/
structure Untouched (c : Controller) (moves : Nat) (o : Attempted) : Prop where
  same : o.controller = c.withMoves (c.moves + moves)
  /-- The chassis is told nothing by the call. -/
  silent : o.outputs.filterMap Output.command? = []
  /-- Whatever comes later comes out as it would without the call. -/
  later : ∀ later, told (o.controller.history later) = told (c.history later) ∧
    o.controller.after later = (c.after later).withMoves (c.moves + moves)

theorem Untouched.of_same {moves : Nat} {o : Attempted}
    (same : o.controller = c.withMoves (c.moves + moves))
    (silent : o.outputs.filterMap Output.command? = []) : Untouched c moves o := by
  refine ⟨same, silent, fun later => ?_⟩
  rw [same]
  exact ⟨told_withMoves c _ later, after_withMoves c _ later⟩

theorem generate_eq_of_error {waypoints : List (Waypoint Float)} {id : String}
    {limits : Limits Float} {error : ControlError}
    (h : (c.generate waypoints id limits).1 = .error error) :
    ∃ notices, c.generate waypoints id limits = (.error error, c, notices) := by
  unfold generate at h ⊢
  cases hplan : c.planner.plan waypoints limits with
  | error e =>
    rw [hplan] at h
    exact ⟨_, by rw [← h]⟩
  | ok plan =>
    rw [hplan] at h
    cases h

/-- A move comes out as its planning does. -/
theorem moveTo_result (waypoints : List (Waypoint Float)) (options : RunOptions) :
    (c.moveTo waypoints options).1 = ((c.withMoves (c.moves + 1)).generate waypoints
      (moveId c.moves) c.params.limits).1 := by
  unfold moveTo withMoves
  simp only
  split
  · rename_i hplan
    rw [hplan]
  · rename_i hplan
    rw [hplan]
    split <;> rfl

/-- A move that fails has registered nothing and driven nothing. -/
theorem moveTo_of_error {waypoints : List (Waypoint Float)} {options : RunOptions}
    {error : ControlError} (h : (c.attempt (.moveTo waypoints options)).result = .error error) :
    Untouched c 1 (c.attempt (.moveTo waypoints options)) := by
  have hresult : (c.moveTo waypoints options).1 = .error error := h
  rw [moveTo_result] at hresult
  obtain ⟨notices, hplan⟩ := generate_eq_of_error hresult
  have hmove : c.moveTo waypoints options =
      (.error error, c.withMoves (c.moves + 1), notices, []) := by
    unfold withMoves at hplan
    simp only [moveTo, hplan, withMoves]
  rw [attempt, hmove]
  refine .of_same rfl ?_
  change (notices.map Output.notice ++ []).filterMap Output.command? = []
  rw [List.append_nil]
  exact filterMap_notices notices

theorem Registers.untouched {found : Option (String × Path)} {o : Attempted}
    (h : Registers c found o)
    (hn : (∃ error, o.result = .error error) ∨
      ∃ id path, found = some (id, path) ∧ path.isEmpty = true) : Untouched c 0 o := by
  refine .of_same ?_ h.silent
  change o.controller = c
  cases hf : found with
  | none => exact (h.fails hf).2
  | some pair =>
    obtain ⟨id, path⟩ := pair
    obtain ⟨hok, hcontroller⟩ := h.finds id path hf
    rcases hn with ⟨error, herror⟩ | ⟨other, empty, hother, hempty⟩
    · rw [hok] at herror
      cases herror
    · obtain ⟨rfl, rfl⟩ := Prod.mk.inj (Option.some.inj (hf.symm.trans hother))
      rw [hcontroller]
      exact serve_register_of_isEmpty hempty

theorem untouched_of_comesToNothing {call : FallibleCall} (h : c.ComesToNothing call) :
    Untouched c call.moves (c.attempt call) := by
  cases call with
  | store | storeTo => exact .of_same rfl (filterMap_notices _)
  | moveTo waypoints options =>
    obtain ⟨error, he⟩ := h.resolve_right (by rintro ⟨id, path, hf, -⟩; cases hf)
    exact moveTo_of_error he
  | generate | generateWithin | load | loadFrom => exact (registers_of_seeks rfl).untouched h

variable (params : Params Float) (converter : Converter Float) (chassis : Drivetrain)

/-- Calls that come to nothing change nothing. Whatever the engine is at, a call that fails, and one
that plans or reads an empty path, leaves the shared state, the engine and the chassis as they are,
tells the chassis nothing, and leaves no trace in what comes later; only a move is counted. A call
for a path to be planned or read fails when it finds none, and else does nothing but register it,
and what it finds is the same whatever others do before it comes to that. -/
theorem calls_that_come_to_nothing_change_nothing (actions : List Action) (call : FallibleCall) :
    let c := (fresh params converter chassis).after actions
    (c.ComesToNothing call → Untouched c call.moves (c.attempt call)) ∧
    (call.seeks = true → Registers c (call.found? c) (c.attempt call)) ∧
    ∀ beside, call.found? (c.after beside) = call.found? c :=
  ⟨untouched_of_comesToNothing, registers_of_seeks, found?_after call _⟩

end Controller

end SkidSteer
