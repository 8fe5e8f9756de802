import Std.Time
import SkidSteer.Mission

namespace SkidSteer.Program

open Storage

def nodeAt (location : String) : IO (Option Node) := do
  try
    let path ← IO.FS.realPath location
    if ← path.isDir then return some .directory
    else return some (.file (← IO.FS.readBinFile path).toList)
  catch _ => return none

def locationOf (place : List String) : String :=
  separator.toString ++ separator.toString.intercalate place

def look (files : FileSystem) (location : String) : IO FileSystem := do
  let mut files := files
  let mut place := files.start location
  let mut walked := if isAbsolute location then separator.toString else ""
  for name in names location do
    walked := join walked name
    place := if name = "." then place else if name = ".." then place.dropLast else place ++ [name]
    if let some node ← nodeAt walked then
      files := files.set place node
  return files

def thisHost : IO Host := do
  match ← IO.getEnv rootVariable with
  | none => return ⟨none, .empty⟩
  | some root =>
    let settings := join root Host.settingsDirectory
    let working := names (← IO.currentDir).toString
    let mut files ← look { nodes := [], working } root
    for location in [join root Mission.sessions, join settings Mission.controllerFile,
        join settings Mission.missionFile] do
      files ← look files location
    return ⟨some root, files⟩

def save (before after : FileSystem) : IO Unit := do
  for (place, node) in after.nodes do
    unless before.node? place == some node do
      let location := locationOf place
      match node with
      | .directory => IO.FS.createDirAll location
      | .file bytes => IO.FS.writeBinFile location ⟨bytes.toArray⟩

def now : IO Instant := do
  return ⟨(← Std.Time.Timestamp.now).toNanosecondsSinceUnixEpoch.val⟩

/-- The seconds since the session began, in six places at the right of ten columns. -/
def stamp (epoch moment : Instant) : String :=
  let seconds := Decimal.fixed 6 (Instant.secondsSince (some epoch) moment)
  String.ofList (List.replicate (10 - seconds.length) ' ') ++ seconds ++ " "

/-- Shows the log, and writes it to its file. -/
def log (s : Session) (entries : List Entry) : IO Unit := do
  let stamp := stamp s.epoch (← now)
  let lines := entries.map fun e => e.line stamp (Decimal.fixed 2) ++ "\n"
  IO.print (String.join lines)
  IO.FS.writeFile s.logFile (String.join lines)

/-- The messages of a failure, numbered from what was being done to what went wrong. -/
def complain (messages : List String) : IO Unit := do
  unless messages.isEmpty do
    IO.eprintln "Error:"
    for (message, i) in messages.zipIdx do
      IO.eprintln ("   " ++ toString i ++ ": " ++ message)

def run : IO UInt32 := do
  let host ← thisHost
  let outcome := Mission.run host (← now)
  if let some session := outcome.session then
    save host.files outcome.files
    log session outcome.entries
  complain outcome.messages
  return outcome.exitCode.toUInt32

end SkidSteer.Program

def main : IO UInt32 := SkidSteer.Program.run
