import SkidSteer.Control.Engine
import SkidSteer.Control.Storing
import SkidSteer.Planning.Planner

namespace SkidSteer

open Storage

inductive ControlError where
  | notPlanned (error : PlanError Float)
  | corruptPath (error : StoreError)
  | storage (error : StoreError)
  | configuration (error : ConfigError Float)
  deriving DecidableEq

namespace ControlError

/-- Faulty data and failing access are told apart. -/
def ofStore (e : StoreError) : ControlError := if e.isCorrupt then .corruptPath e else .storage e

def message : ControlError → String
  | .notPlanned e => "Could not generate path: " ++ e.message
  | .corruptPath e => "Could not load path: " ++ e.message
  | .storage e => "Could not access path storage: " ++ e.message
  | .configuration e => "Invalid controller configuration: " ++ e.message

end ControlError

structure Controller where
  params : Params Float
  converter : Converter Float
  shared : Shared
  stage : Stage
  chassis : Drivetrain
  /-- How many moves were asked for, which numbers their paths. -/
  moves : Nat

namespace Controller

/-- A controller whose engine looks for work. -/
def create (params : Params Float) (chassis : Drivetrain) : Except ControlError Controller :=
  match Converter.ofParams params with
  | .error e => .error (.configuration e)
  | .ok converter => .ok ⟨params, converter, .initial, .idle, chassis, 0⟩

def planner (c : Controller) : Planner Float :=
  ⟨c.params.geometry.wheelTrack, c.params.samplePeriod⟩

def isBlocked (c : Controller) : Bool := c.stage.isBlocked c.shared

def isHeld (c : Controller) : Bool := c.stage.isHeld

def receive (chassis : Drivetrain) : Output → Drivetrain
  | .notice _ => chassis
  | .command command => chassis.apply command

def step (c : Controller) : Controller × List Output :=
  let (shared, stage, outputs) := c.stage.step c.converter c.shared
  ({ c with shared, stage, chassis := outputs.foldl receive c.chassis }, outputs)

/-- Steps of the engine until `stop` holds, `most` at the most. -/
def stepUntil (stop : Controller → Bool) : (most : Nat) → Controller → Controller × List Output
  | 0, c => (c, [])
  | most + 1, c =>
    if stop c then (c, [])
    else
      let (c, outputs) := c.step
      let (c, later) := stepUntil stop most c
      (c, outputs ++ later)

def stepsLeft (c : Controller) : Nat := c.stage.stepsLeft c.shared

def runToRest (c : Controller) : Controller × List Output := stepUntil isBlocked c.stepsLeft c

def runToSample (c : Controller) : Controller × List Output :=
  stepUntil (fun c => c.isHeld || c.isBlocked) c.stepsLeft c

/-- One step, and on to the next sample: what a held engine does when it is let go. -/
def release (c : Controller) : Controller × List Output :=
  let (c, outputs) := c.step
  let (c, later) := c.runToSample
  (c, outputs ++ later)

def advance : (count : Nat) → Controller → Controller × List Output
  | 0, c => (c, [])
  | count + 1, c =>
    if c.isHeld then
      let (c, outputs) := c.release
      let (c, later) := advance count c
      (c, outputs ++ later)
    else (c, [])

def isSettled (c : Controller) : Bool := c.shared.isSettled

def waitUntilSettled (c : Controller) : Controller × List Output :=
  stepUntil isSettled c.stepsLeft c

/-- The engine goes on to where it breaks off, unable to sleep once so many samples are sent. -/
def breakOff (c : Controller) (count : Nat) : Controller × List Output :=
  stepUntil (fun d => d.stage.hasSent count) c.stepsLeft c

def serve (c : Controller) (r : Request) : Controller := { c with shared := c.shared.serve r }

def paths (c : Controller) : List String := c.shared.registry.ids

def path? (c : Controller) (id : String) : Option Path := c.shared.registry.get? id

def target? (c : Controller) : Option String := c.shared.target.map (·.id)

/-- Registers a path, unless it is empty. -/
def register (c : Controller) (origin : Origin) (id : String) (path : Path) :
    Controller × List Notice :=
  (c.serve (.register id path),
    [if path.isEmpty then .emptyPath origin id else .registered origin id path.size])

def planNotice : Plan Float → Notice
  | .empty => .plannedNothing
  | .path length waypoints trajectory => .planned length waypoints trajectory.size

/-- Plans a path and registers it. A path that is there already stays when planning fails. -/
def generate (c : Controller) (waypoints : List (Waypoint Float)) (id : String)
    (limits : Limits Float) : Except ControlError Unit × Controller × List Notice :=
  match c.planner.plan waypoints limits with
  | .error e => (.error (.notPlanned e), c, [.notGenerated id e])
  | .ok plan =>
    let (c, notices) := c.register .generated id (plan.trajectory.map Binary64.ofFloat)
    (.ok (), c, planNotice plan :: notices)

/-- Reads a path from two streams and registers it. One that is there already stays when reading
fails. -/
def loadFrom (c : Controller) (id : String) (left right : Source) :
    Except ControlError Unit × Controller × List Notice :=
  match decode left right with
  | (.error e, _, _) => (.error (.ofStore e), c, [.notLoaded id e])
  | (.ok path, _, _) =>
    let (c, notices) := c.register .loaded id path
    (.ok (), c, notices)

/-- Writes a path to two streams; a path that is not there is not written. -/
def storeTo (c : Controller) (id : String) (left right : Sink) :
    Except ControlError Unit × Sink × Sink × List Notice :=
  match c.path? id with
  | none => (.ok (), left, right, [.nothingToStore id])
  | some path =>
    match encode path left right with
    | (.ok (), left, right) => (.ok (), left, right, [.stored id path.size])
    | (.error e, left, right) => (.error (.ofStore e), left, right, [])

def files (c : Controller) (directory id : String) : PathFiles :=
  .of c.params.storageRoot directory id

def store (c : Controller) (fs : FileSystem) (directory id : String) :
    Except ControlError Unit × FileSystem × List Notice :=
  match Storing.run (c.files directory id) id (.unlimited, .unlimited) c.shared.registry
      Storing.longest fs .lookUp with
  | (fs, .done (.error e), notices) => (.error (.ofStore e), fs, notices)
  | (fs, _, notices) => (.ok (), fs, notices)

def openFile (fs : FileSystem) (location : String) : Except StoreError Source × List Notice :=
  match fs.openSource location with
  | .ok source => (.ok source, [])
  | .error kind =>
    (.error (.openFailed location kind.error), [.notOpened .reading location kind.error])

/-- Loads a path from its two files, both of which are opened first. -/
def load (c : Controller) (fs : FileSystem) (directory id : String) :
    Except ControlError Unit × Controller × List Notice :=
  let files := c.files directory id
  match openFile fs files.left with
  | (.error e, notices) => (.error (.ofStore e), c, notices)
  | (.ok left, _) =>
    match openFile fs files.right with
    | (.error e, notices) => (.error (.ofStore e), c, notices)
    | (.ok right, _) => c.loadFrom id left right

def remove (c : Controller) (id : String) : Controller × List Notice :=
  (c.serve (.remove id), [if (c.path? id).isSome then .removed id else .nothingToRemove id])

def setTarget (c : Controller) (id : String) (options : RunOptions) : Controller × List Notice :=
  (c.serve (.setTarget ⟨id, options⟩),
    [if !c.shared.registry.contains id then .targetUnknown id
     else if c.shared.disabled then .targetWhileDisabled id
     else .targetSet id options])

def setDisabled (c : Controller) (disabled : Bool) : Controller × List Notice :=
  (c.serve (.setDisabled disabled),
    if c.shared.disabled = disabled then [] else [if disabled then .disabled else .enabled])

/-- How long a reset waits for the engine. -/
def resetTimeout : Duration := ⟨Duration.perSecond⟩

/-- Drops the target, ends a run, and enables the controller. The call returns when the engine
stands, or unanswered when its time is up, in which the engine takes `most` steps. -/
def resetWithin (most : Nat) (c : Controller) : Controller × List Notice × List Output :=
  let asked := (c.serve .cancel).serve .enable
  let answered (d : Controller) : Bool := asked.shared.cancelRequests ≤ d.shared.cancelsHandled
  let (c, outputs) := stepUntil answered most asked
  (c, if answered c then [.resetting] else [.resetting, .resetUnanswered resetTimeout], outputs)

/-- The engine sleeps longer between two samples than a reset waits for it. -/
def oversleeps (c : Controller) : Bool :=
  !c.params.loopPeriod?.any fun period => period.nanoseconds ≤ resetTimeout.nanoseconds

/-- The steps that the engine takes while a reset waits, if it has all of a period to sleep once it
has sent a sample, and nothing else takes time. -/
def stepsInTime (c : Controller) : Nat :=
  match c.stage with
  | .sample _ (_ + 1) => if c.oversleeps then 0 else c.stepsLeft
  | .sending _ _ => if c.oversleeps then 1 else c.stepsLeft
  | _ => c.stepsLeft

def reset (c : Controller) : Controller × List Notice × List Output :=
  c.resetWithin c.stepsInTime

def moveId (number : Nat) : String := "__mp_ctrl_move_to_" ++ toString number

/-- Plans a path, drives it to its end, and removes it. -/
def moveTo (c : Controller) (waypoints : List (Waypoint Float)) (options : RunOptions) :
    Except ControlError Unit × Controller × List Notice × List Output :=
  let id := moveId c.moves
  let c := { c with moves := c.moves + 1 }
  match c.generate waypoints id c.params.limits with
  | (.error e, c, notices) => (.error e, c, notices, [])
  | (.ok (), c, planned) =>
    if (c.path? id).isNone then (.ok (), c, planned ++ [.nothingToDrive], [])
    else
      let (c, asked) := c.setTarget id options
      let (c, outputs) := c.waitUntilSettled
      let (c, removed) := c.remove id
      (.ok (), c, planned ++ asked ++ removed, outputs)

/-- The engine is shut down and goes on until it has finished. -/
def close (c : Controller) : Controller × List Output :=
  let c := c.serve .shutDown
  stepUntil isBlocked c.stepsLeft c

end Controller

end SkidSteer
