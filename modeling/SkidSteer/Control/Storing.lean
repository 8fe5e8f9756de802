import SkidSteer.Control.Shared
import SkidSteer.Log.Notice
import SkidSteer.Storage.FileSystem

namespace SkidSteer

open Storage

structure PathFiles where
  left : String
  right : String

def PathFiles.of (root directory id : String) : PathFiles :=
  ⟨fileLocation root directory (id ++ ".left.bin"), fileLocation root directory (id ++ ".right.bin")⟩

/-- What storing does next, or how it ended. Callers may change the registry between any two of its
steps. -/
inductive Storing where
  | lookUp
  | createLeft
  | createRight
  | lookUpAgain
  | write (path : Path)
  | done (result : Except StoreError Unit)

namespace Storing

def openFile (fs : FileSystem) (location : String) (next : Storing) :
    FileSystem × Storing × List Notice :=
  match fs.createWithin location with
  | (.ok (), fs) => (fs, next, [])
  | (.error kind, fs) =>
    (fs, .done (.error (.openFailed location kind.error)),
      [.notOpened .writing location kind.error])

/-- One step. The sinks say how much the files take. -/
def step (files : PathFiles) (id : String) (sinks : Sink × Sink) (registry : Registry)
    (fs : FileSystem) : Storing → FileSystem × Storing × List Notice
  | .lookUp =>
    if registry.contains id then (fs, .createLeft, [])
    else (fs, .done (.ok ()), [.nothingToStore id])
  | .createLeft => openFile fs files.left .createRight
  | .createRight => openFile fs files.right .lookUpAgain
  | .lookUpAgain =>
    match registry.get? id with
    | some path => (fs, .write path, [])
    | none => (fs, .done (.ok ()), [.nothingToStore id])
  | .write path =>
    let (result, left, right) := encode path sinks.1 sinks.2
    let fs := fs.write files.left left.accepted.toList
    let fs := fs.write files.right right.accepted.toList
    match result with
    | .ok () => (fs, .done (.ok ()), [.stored id path.size])
    | .error e => (fs, .done (.error e), [])
  | .done result => (fs, .done result, [])

def longest : Nat := 5

def run (files : PathFiles) (id : String) (sinks : Sink × Sink) (registry : Registry) :
    Nat → FileSystem → Storing → FileSystem × Storing × List Notice
  | 0, fs, stage => (fs, stage, [])
  | more + 1, fs, stage =>
    let (fs, stage, notices) := stage.step files id sinks registry fs
    let (fs, stage, later) := run files id sinks registry more fs stage
    (fs, stage, notices ++ later)

end Storing

end SkidSteer
