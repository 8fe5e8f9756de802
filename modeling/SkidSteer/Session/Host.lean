import SkidSteer.Storage.FileSystem
import SkidSteer.Text.Quoted

namespace SkidSteer

open Storage

structure Host where
  /-- The value of the variable that names the software root, if it is set. -/
  rootSetting : Option String
  files : FileSystem

inductive HostError where
  | rootNotSet
  | rootNotDirectory (found : String)
  deriving DecidableEq

def rootVariable : String := "DRIVE_SW_ROOT"

def HostError.message : HostError → String
  | .rootNotSet => "The software root environment variable (" ++ rootVariable ++ ") is not set"
  | .rootNotDirectory found =>
    "The software root (" ++ Text.quoted found ++ ") is not a directory"

/-- The software root has to be a directory. An empty location names none. -/
def Host.softwareRoot (h : Host) : Except HostError String :=
  match h.rootSetting with
  | none => .error .rootNotSet
  | some location =>
    if h.files.isDirectory location then .ok location
    else .error (.rootNotDirectory location)

inductive LoadError where
  | host (error : HostError)
  | unread (error : IoError)
  /-- The document has a fault, or a field of the wrong kind, or lacks one. -/
  | malformed
  deriving DecidableEq

def LoadError.message : LoadError → String
  | .host e => "The software root is not available: " ++ e.message
  | .unread e => "Cannot load the parmeter file: " ++ e.detail
  | .malformed => "Cannot read the parameter file: it does not hold the settings"

namespace Host

def textOf (h : Host) (location : String) : Except IoError String :=
  match h.files.read location with
  | .error kind => .error kind.error
  | .ok bytes =>
    match String.fromUTF8? ⟨bytes.toArray⟩ with
    | some text => .ok text
    | none => .error ⟨.other, "stream did not contain valid UTF-8"⟩

def settingsDirectory : String := "params"

def load {β : Type} (h : Host) (parse? : String → Option β) (file : String) :
    Except LoadError β :=
  match h.softwareRoot with
  | .error e => .error (.host e)
  | .ok root =>
    match h.textOf (join (join root settingsDirectory) file) with
    | .error e => .error (.unread e)
    | .ok text =>
      match parse? text with
      | some settings => .ok settings
      | none => .error .malformed

end Host

end SkidSteer
