import SkidSteer.Demand
import SkidSteer.Storage.Codec

namespace SkidSteer

/-- How serious a notice is, from the most to the least. -/
inductive Level where
  | error
  | warn
  | info
  | debug
  | trace
  deriving DecidableEq, Repr

namespace Level

def name : Level → String
  | .error => "ERROR"
  | .warn => "WARN"
  | .info => "INFO"
  | .debug => "DEBUG"
  | .trace => "TRACE"

def tag : Level → String
  | .error => "ERR"
  | .warn => "WRN"
  | .info => "INF"
  | .debug => "DBG"
  | .trace => "TRC"

def text : Level → String
  | .error => "Error"
  | .warn => "Warn"
  | .info => "Info"
  | .debug => "Debug"
  | .trace => "Trace"

def verbosity : Level → Nat
  | .error => 1
  | .warn => 2
  | .info => 3
  | .debug => 4
  | .trace => 5

end Level

inductive RunEnd where
  | complete
  | disabled
  | cancelled
  | preempted
  | shutdown
  deriving DecidableEq, Repr

def RunEnd.text : RunEnd → String
  | .complete => "Complete"
  | .disabled => "Disabled"
  | .cancelled => "Cancelled"
  | .preempted => "Preempted"
  | .shutdown => "Shutdown"

inductive Origin where
  | generated
  | loaded
  deriving DecidableEq, Repr

def Origin.text : Origin → String
  | .generated => "Generated"
  | .loaded => "Loaded"

inductive Access where
  | reading
  | writing
  deriving DecidableEq, Repr

def Access.text : Access → String
  | .reading => "reading"
  | .writing => "writing"

inductive Part where
  | planner
  | engine
  | controller
  deriving DecidableEq, Repr

def Part.text : Part → String
  | .planner => "drive_lib::path_gen::hermite"
  | .engine => "drive_lib::mp_ctrl::engine"
  | .controller => "drive_lib::mp_ctrl::state"

inductive Notice where
  | plannedNothing
  | planned (length : Float) (waypoints samples : Nat)
  | engineStarted
  | engineStopped
  | starting (id : String) (samples : Nat) (options : RunOptions)
  | ended (id : String) (reason : RunEnd)
  | pendingGone
  | initialised (unit : CommandUnit) (period : Duration)
  | notGenerated (id : String) (error : PlanError Float)
  | notLoaded (id : String) (error : Storage.StoreError)
  | registered (origin : Origin) (id : String) (samples : Nat)
  | emptyPath (origin : Origin) (id : String)
  | removed (id : String)
  | nothingToRemove (id : String)
  | nothingToStore (id : String)
  | stored (id : String) (samples : Nat)
  | notOpened (access : Access) (location : String) (error : Storage.IoError)
  | targetUnknown (id : String)
  | targetWhileDisabled (id : String)
  | targetSet (id : String) (options : RunOptions)
  | disabled
  | enabled
  | resetting
  | resetUnanswered (waited : Duration)
  | nothingToDrive
  deriving DecidableEq

namespace Notice

def level : Notice → Level
  | .pendingGone | .notGenerated .. | .notLoaded .. | .nothingToRemove _ | .nothingToStore _
  | .notOpened .. | .targetUnknown _ | .resetUnanswered _ => .warn
  | .initialised .. | .registered .. | .emptyPath .. | .removed _ | .stored .. => .info
  | .plannedNothing | .planned .. | .engineStarted | .engineStopped | .starting .. | .ended ..
  | .targetWhileDisabled _ | .targetSet .. | .disabled | .enabled | .resetting
  | .nothingToDrive => .debug

def part : Notice → Part
  | .plannedNothing | .planned .. => .planner
  | .engineStarted | .engineStopped | .starting .. | .ended .. | .pendingGone => .engine
  | .initialised .. | .notGenerated .. | .notLoaded .. | .registered .. | .emptyPath ..
  | .removed _ | .nothingToRemove _ | .nothingToStore _ | .stored .. | .notOpened ..
  | .targetUnknown _ | .targetWhileDisabled _ | .targetSet .. | .disabled | .enabled
  | .resetting | .resetUnanswered _ | .nothingToDrive => .controller

def inQuotes (id : String) : String := "\"" ++ id ++ "\""

def samplesText (samples : Nat) : String := "(" ++ toString samples ++ " samples)"

def text : Notice → String
  | .plannedNothing => "Fewer than two waypoints, planning an empty path"
  | .planned length waypoints samples =>
    "Planned " ++ Decimal.fixed 3 length ++ " m path through " ++ toString waypoints
      ++ " waypoints in " ++ toString samples ++ " samples"
  | .engineStarted => "Motion profile engine started"
  | .engineStopped => "Motion profile engine stopped"
  | .starting id samples options =>
    "Starting path " ++ inQuotes id ++ " (" ++ toString samples ++ " samples, " ++ options.text
      ++ ")"
  | .ended id reason => "Path " ++ inQuotes id ++ " ended: " ++ reason.text
  | .pendingGone => "Pending target no longer in the registry, not starting"
  | .initialised unit period =>
    "MpCtrl initialised (" ++ unit.name ++ " demands, " ++ period.text ++ " period)"
  | .notGenerated id error => "Could not generate path " ++ inQuotes id ++ ": " ++ error.message
  | .notLoaded id error => "Could not load path " ++ inQuotes id ++ ": " ++ error.message
  | .registered origin id samples =>
    origin.text ++ " path " ++ inQuotes id ++ " " ++ samplesText samples
  | .emptyPath origin id =>
    origin.text ++ " path " ++ inQuotes id ++ " is empty, nothing registered"
  | .removed id => "Removed path " ++ inQuotes id
  | .nothingToRemove id => "Cannot remove path " ++ inQuotes id ++ ", it doesn't exist"
  | .nothingToStore id => "Cannot store path " ++ inQuotes id ++ ", it doesn't exist"
  | .stored id samples => "Stored path " ++ inQuotes id ++ " " ++ samplesText samples
  | .notOpened access location error =>
    "Could not open " ++ Text.quoted location ++ " for " ++ access.text ++ ": " ++ error.detail
  | .targetUnknown id =>
    "Target path " ++ inQuotes id ++ " doesn't exist, nothing will be driven"
  | .targetWhileDisabled id =>
    "Target set to " ++ inQuotes id ++ " while disabled, not starting"
  | .targetSet id options => "Target set to " ++ inQuotes id ++ " (" ++ options.text ++ ")"
  | .disabled => "MpCtrl disabled"
  | .enabled => "MpCtrl enabled"
  | .resetting => "Resetting MpCtrl"
  | .resetUnanswered waited => "Engine didn't acknowledge the reset within " ++ waited.text
  | .nothingToDrive => "move_to: nothing to drive"

end Notice

end SkidSteer
