import SkidSteer.Control.Controller
import SkidSteer.Log.Journal
import SkidSteer.Pacing
import SkidSteer.Settings

namespace SkidSteer

open Storage

inductive Failure where
  | session (error : SessionError)
  | log (error : LogError)
  | controllerSettings (error : LoadError)
  | missionSettings (error : LoadError)
  | controller (error : ControlError)
  /-- The sample period is no span of time. -/
  | period
  | planning (id : String) (error : ControlError)
  | storing (id : String) (error : ControlError)
  | loading (id : String) (error : ControlError)
  /-- The engine broke off while a path was driven, and the wait for it has no end. -/
  | stuck

namespace Failure

def messages : Failure → List String
  | .session e => ["Failed to create the session", e.message]
  | .log e => ["Failed to initialise logging", e.message]
  | .controllerSettings e => ["Could not load mp_ctrl params", e.message]
  | .missionSettings e => ["Could not load exec params", e.message]
  | .controller e => ["Failed to initialise MpCtrl", e.message]
  | .period => []
  | .planning id e => ["Failed to generate path " ++ Notice.inQuotes id, e.message]
  | .storing id e => ["Failed to store path " ++ Notice.inQuotes id, e.message]
  | .loading id e => ["Failed to load path " ++ Notice.inQuotes id, e.message]
  | .stuck => []

end Failure

/-- What happens in a mission, in order. -/
inductive Event where
  | entry (e : Entry)
  | command (c : Command Float)

def Event.ofOutput : Output → Event
  | .notice n => .entry (.notice n)
  | .command c => .command c

def Event.ofNotice (n : Notice) : Event := .entry (.notice n)

def Event.ofReport (r : Report) : Event := .entry (.report r)

def Event.entry? : Event → Option Entry
  | .entry e => some e
  | .command _ => none

def Event.command? : Event → Option (Command Float)
  | .entry _ => none
  | .command c => some c

/-- The round after which the engine breaks off while it drives so many samples, if it does. `clock`
shows what time it is when the chassis has been told so much. -/
def Params.brokenRound? (p : Params Float) (clock : Nat → Tick) (told samples : Nat) : Option Nat :=
  Rate.broken? (fun round => clock (told + round + 1)) (p.loopPeriod?.getD .zero) samples 0 .new

/-- A mission under way: the controller, the files, and what has happened. -/
structure Course where
  controller : Controller
  files : FileSystem
  events : List Event

namespace Course

def add (c : Course) (events : List Event) : Course := { c with events := c.events ++ events }

def report (c : Course) (r : Report) : Course := c.add [.ofReport r]

/-- One step after another, up to the first that fails. -/
def each {β : Type} (step : Course → β → Except Failure Unit × Course) :
    List β → Course → Except Failure Unit × Course
  | [], c => (.ok (), c)
  | b :: rest, c =>
    match step c b with
    | (.ok (), c) => each step rest c
    | (.error e, c) => (.error e, c)

def plan (c : Course) (leg : Leg) : Except ControlError Unit × Course :=
  let (result, controller, notices) :=
    c.controller.generate leg.waypoints leg.id c.controller.params.limits
  (result, { c with controller }.add (notices.map .ofNotice))

def store (directory : String) (c : Course) (leg : Leg) : Except ControlError Unit × Course :=
  let (result, files, notices) := c.controller.store c.files directory leg.id
  (result, { c with files }.add (notices.map .ofNotice))

def prepare (directory : String) (c : Course) (leg : Leg) : Except Failure Unit × Course :=
  match c.plan leg with
  | (.error e, c) => (.error (.planning leg.id e), c)
  | (.ok (), c) =>
    match c.store directory leg with
    | (.error e, c) => (.error (.storing leg.id e), c)
    | (.ok (), c) => (.ok (), c)

def reload (directory : String) (c : Course) (id : String) : Except Failure Unit × Course :=
  let (result, controller, notices) := c.controller.load c.files directory id
  (result.mapError (.loading id), { c with controller }.add (notices.map .ofNotice))

def drivingTime (p : Params Float) (samples : Nat) : Float := samples.toFloat * p.samplePeriod

def commands (c : Course) : List (Command Float) := c.events.filterMap Event.command?

/-- Drives a path, if it is there, to its end or to where the engine breaks off. -/
def drive (clock : Nat → Tick) (c : Course) (leg : Leg) : Except Failure Unit × Course :=
  match c.controller.path? leg.id with
  | none => (.ok (), c.report (.nothingPlanned leg.id))
  | some path =>
    let controller := { c.controller with chassis := c.controller.chassis.clear }
    let (controller, asked) := controller.setTarget leg.id leg.options
    match c.controller.params.brokenRound? clock c.commands.length path.size with
    | none =>
      let (controller, outputs) := controller.waitUntilSettled
      let c := { c with controller }.add (asked.map Event.ofNotice ++ outputs.map Event.ofOutput)
      (.ok (), c.report (.driven leg.id path.size (drivingTime controller.params path.size)
        controller.chassis.left controller.chassis.right))
    | some round =>
      let (controller, outputs) := controller.breakOff (round + 1)
      (.error .stuck,
        { c with controller }.add (asked.map Event.ofNotice ++ outputs.map Event.ofOutput))

/-- Every path is planned and stored before any is loaded, so that what is driven is what the files
hold. -/
def run (clock : Nat → Tick) (c : Course) (m : Mission) : Except Failure Unit × Course :=
  match each (prepare m.directory) m.legs c with
  | (.error e, c) => (.error e, c)
  | (.ok (), c) =>
    match each (reload m.directory) c.controller.paths c with
    | (.error e, c) => (.error e, c)
    | (.ok (), c) =>
      match each (drive clock) m.legs (c.report (.ready c.controller.paths)) with
      | (.error e, c) => (.error e, c)
      | (.ok (), c) => (.ok (), c.report .finished)

/-- The controller is closed whether or not the mission failed. -/
def finish (c : Course) : Course :=
  let (controller, outputs) := c.controller.close
  { c with controller }.add (outputs.map .ofOutput)

end Course

structure Outcome where
  result : Except Failure Unit
  /-- The session, once it has begun. -/
  session : Option Session
  files : FileSystem
  events : List Event

namespace Outcome

def entries (o : Outcome) : List Entry := o.events.filterMap Event.entry?

def commands (o : Outcome) : List (Command Float) := o.events.filterMap Event.command?

/-- (A run that is stuck does not end.) -/
def exitCode (o : Outcome) : Nat :=
  match o.result with
  | .ok () => 0
  | .error .period => 101
  | .error _ => 1

def messages (o : Outcome) : List String :=
  match o.result with
  | .ok () => []
  | .error e => e.messages

end Outcome

namespace Mission

def program : String := "drive_exec"

def sessions : String := "sessions"

def controllerFile : String := "mp_ctrl.toml"

def missionFile : String := "drive_exec.toml"

def detail : Level := .debug

def opening (s : Session) : List Event :=
  [.ofReport .opened, .ofReport (.began s.epoch), .ofReport (.detail detail),
    .ofReport (.file s.logFile), .ofReport .title, .ofReport (.directory s.root)]

/-- The settings of the controller, whose paths are stored in the session, and the mission. -/
def settings (h : Host) (s : Session) : Except Failure (Params Float × Mission) :=
  match h.load Params.parse? controllerFile with
  | .error e => .error (.controllerSettings e)
  | .ok params =>
    match h.load parse? missionFile with
    | .error e => .error (.missionSettings e)
    | .ok mission => .ok ({ params with storageRoot := join s.root "usd" }, mission)

/-- A controller for a mission, with what it says as it begins. -/
def launch (params : Params Float) (m : Mission) : Except Failure (Controller × List Event) :=
  match Controller.create params (.ofLimit m.chassisLimit) with
  | .error e => .error (.controller e)
  | .ok controller =>
    match params.loopPeriod? with
    | none => .error .period
    | some period =>
      .ok (controller, [.ofNotice .engineStarted, .ofNotice (.initialised params.unit period)])

/-- A mission from its settings to its end. One that is stuck does not come to close its
controller. -/
def execute (h : Host) (s : Session) (clock : Nat → Tick) : Outcome :=
  match settings h s with
  | .error e => ⟨.error e, some s, h.files, opening s⟩
  | .ok (params, m) =>
    let loaded := opening s ++ [.ofReport .settingsLoaded]
    match launch params m with
    | .error e => ⟨.error e, some s, h.files, loaded⟩
    | .ok (controller, begun) =>
      match Course.run clock ⟨controller, h.files, loaded ++ begun⟩ m with
      | (.error .stuck, course) => ⟨.error .stuck, some s, course.files, course.events⟩
      | (result, course) =>
        let course := course.finish
        ⟨result, some s, course.files, course.events⟩

/-- A run of the program that begins at `now`. -/
def run (h : Host) (now : Instant) (clock : Nat → Tick := stillClock) : Outcome :=
  match Session.begin h sessions program now with
  | (.error e, h) => ⟨.error (.session e), none, h.files, []⟩
  | (.ok s, h) =>
    match s.openLog (some detail) h.files with
    | .error e => ⟨.error (.log e), some s, h.files, []⟩
    | .ok files => execute { h with files } s clock

end Mission

end SkidSteer
