import SkidSteer.Session.Host
import SkidSteer.Session.Instant

namespace SkidSteer

open Storage

structure Session where
  epoch : Instant
  root : String
  logFile : String

inductive SessionError where
  | host (error : HostError)
  | notCreated (error : IoError)
  deriving DecidableEq

def SessionError.message : SessionError → String
  | .host e => "The software root is not available: " ++ e.message
  | .notCreated e => "Cannot create the session directory: " ++ e.detail

namespace Session

/-- The session of a program that begins at `epoch`, in `directory` under the software root. -/
def located (root directory program : String) (epoch : Instant) : Session :=
  let place := join (join root directory) (program ++ "_" ++ epoch.stamp)
  ⟨epoch, place, join place (program ++ ".log")⟩

/-- Begins a session by making its directory. -/
def begin (h : Host) (directory program : String) (epoch : Instant) :
    Except SessionError Session × Host :=
  match h.softwareRoot with
  | .error e => (.error (.host e), h)
  | .ok root =>
    let session := located root directory program epoch
    let (made, files) := h.files.makeDirectories session.root
    let h := { h with files }
    match made with
    | .ok () => (.ok session, h)
    | .error kind => (.error (.notCreated kind.error), h)

end Session

end SkidSteer
