import SkidSteer.Drivetrain
import SkidSteer.Log.Notice
import SkidSteer.Session.Directory

namespace SkidSteer

open Storage

/-- What a mission says of its own progress. -/
inductive Report where
  | opened
  | began (epoch : Instant)
  | detail (level : Level)
  | file (location : String)
  | title
  | directory (location : String)
  | settingsLoaded
  | ready (ids : List String)
  | nothingPlanned (id : String)
  /-- A path was driven, with the demands that reached the motors. -/
  | driven (id : String) (samples : Nat) (seconds : Float) (left right : MotorRecord)
  | finished

namespace Report

def level : Report → Level
  | .nothingPlanned _ => .warn
  | _ => .info

def rangeText (r : MotorRecord) : String :=
  "[" ++ Decimal.fixed 2 r.smallest ++ ", " ++ Decimal.fixed 2 r.largest ++ "]"

/-- The wording, given how the time of a drive is written. Two reports end in a line break. -/
def text (time : Float → String) : Report → String
  | .opened => "Logging initialised"
  | .began epoch => "    Session epoch: " ++ epoch.text
  | .detail level => "    Log level: " ++ level.text
  | .file location => "    Log file path: " ++ Text.quoted location
  | .title => "Drive Executable\n"
  | .directory location => "Session directory: " ++ Text.quoted location ++ "\n"
  | .settingsLoaded => "Exec parameters loaded"
  | .ready ids => toString ids.length ++ " paths ready: " ++ Text.quotedList ids
  | .nothingPlanned id => "Path " ++ Notice.inQuotes id ++ " has no trajectory, skipping"
  | .driven id samples seconds left right =>
    "Path " ++ Notice.inQuotes id ++ " " ++ Notice.samplesText samples ++ " driven in "
      ++ time seconds ++ " s, left demands " ++ rangeText left ++ ", right demands "
      ++ rangeText right
  | .finished => "End of execution"

end Report

inductive Entry where
  | notice (n : Notice)
  | report (r : Report)

namespace Entry

def level : Entry → Level
  | .notice n => n.level
  | .report r => r.level

/-- The wording. Where there is much detail, the part that speaks is named. -/
def text (time : Float → String) : Entry → String
  | .report r => r.text time
  | .notice n =>
    if Level.info.verbosity < n.level.verbosity then n.part.text ++ ": " ++ n.text else n.text

/-- An entry as the log shows it, after the time at which it was made. -/
def line (stamp : String) (time : Float → String) (e : Entry) : String :=
  "[" ++ stamp ++ e.level.tag ++ "] " ++ e.text time

end Entry

abbrev LogFilter := Option Level

namespace LogFilter

def name : LogFilter → String
  | some level => level.name
  | none => "OFF"

def verbosity : LogFilter → Nat
  | some level => level.verbosity
  | none => 0

def shows (filter : LogFilter) (level : Level) : Bool := level.verbosity ≤ verbosity filter

end LogFilter

inductive LogError where
  | tooQuiet (found : LogFilter)
  | notOpened (error : IoError)
  deriving DecidableEq

def LogError.message : LogError → String
  | .tooQuiet found =>
    "Expected a log level of at least \x60INFO\x60, found \x60" ++ LogFilter.name found ++ "\x60"
  | .notOpened e => "Error initialising the log file: " ++ e.detail

/-- Opens the log of a session, which has to show at least what is of common interest. -/
def Session.openLog (s : Session) (filter : LogFilter) (files : FileSystem) :
    Except LogError FileSystem :=
  if LogFilter.shows filter .info then
    match files.create s.logFile with
    | .ok files => .ok files
    | .error kind => .error (.notOpened kind.error)
  else .error (.tooQuiet filter)

end SkidSteer
