import SkidSteer.Storage.Location
import SkidSteer.Storage.Stream

namespace SkidSteer.Storage

def IoKind.detail : IoKind → String
  | .notFound => "No such file or directory (os error 2)"
  | .permissionDenied => "Permission denied (os error 13)"
  | .alreadyExists => "File exists (os error 17)"
  | .notADirectory => "Not a directory (os error 20)"
  | .isADirectory => "Is a directory (os error 21)"
  | .nameTooLong => "File name too long (os error 36)"
  | .invalidInput => "file name contained an unexpected NUL byte"
  | .unexpectedEnd => "failed to fill whole buffer"
  | .writeZero => "failed to write whole buffer"
  | .other => "other error"

def IoKind.error (k : IoKind) : IoError := ⟨k, k.detail⟩

inductive Node where
  | directory
  | file (bytes : List UInt8)
  deriving DecidableEq

/-- The nodes by the names that lead to them from the root directory, which always exists. There are
no links. -/
structure FileSystem where
  nodes : List (List String × Node)
  /-- Where a location that does not begin at the root directory begins. -/
  working : List String := []

namespace FileSystem

def empty : FileSystem := { nodes := [] }

def node? (fs : FileSystem) (place : List String) : Option Node :=
  if place = [] then some .directory else fs.nodes.lookup place

/-- The nodes with the one at `place` replaced where it stands, or added. -/
def put (place : List String) (node : Node) :
    List (List String × Node) → List (List String × Node)
  | [] => [(place, node)]
  | entry :: rest =>
    if entry.1 = place then (place, node) :: rest else entry :: put place node rest

def set (fs : FileSystem) (place : List String) (node : Node) : FileSystem :=
  { fs with nodes := put place node fs.nodes }

def longestName : Nat := 255

def longestLocation : Nat := 4095

/-- Whether a location can be asked for at all. Its length is that of the text as it is given. -/
def check (location : String) : Except IoKind Unit :=
  if location.contains '\x00' then .error .invalidInput
  else if location = "" then .error .notFound
  else if longestLocation < location.utf8ByteSize then .error .nameTooLong
  else .ok ()

/-- Where a walk through directories ends. -/
def walk (fs : FileSystem) (place : List String) : List String → Except IoKind (List String)
  | [] => .ok place
  | name :: rest =>
    if name = "." then walk fs place rest
    else if name = ".." then walk fs place.dropLast rest
    else if longestName < name.utf8ByteSize then .error .nameTooLong
    else
      match fs.node? (place ++ [name]) with
      | none => .error .notFound
      | some (.file _) => .error .notADirectory
      | some .directory => walk fs (place ++ [name]) rest

/-- The place where the walk to a location begins. -/
def start (fs : FileSystem) (location : String) : List String :=
  if isAbsolute location then [] else fs.working

/-- The place that a location names, in a directory that exists. -/
def locate (fs : FileSystem) (location : String) : Except IoKind (List String) := do
  check location
  let directory ← fs.walk (fs.start location) (names location).dropLast
  match (names location).getLast? with
  | none | some "." => return directory
  | some ".." => return directory.dropLast
  | some name =>
    if longestName < name.utf8ByteSize then throw .nameTooLong
    return directory ++ [name]

def find (fs : FileSystem) (location : String) : Except IoKind Node := do
  match fs.node? (← fs.locate location) with
  | none => throw .notFound
  | some .directory => return .directory
  | some (.file bytes) =>
    if endsInSeparator location then throw .notADirectory
    return .file bytes

def isDirectory (fs : FileSystem) (location : String) : Bool :=
  match fs.find location with
  | .ok node => node == .directory
  | .error _ => false

def makeDirectory (fs : FileSystem) (location : String) : Except IoKind FileSystem := do
  let place ← fs.locate location
  match fs.node? place with
  | some _ => throw .alreadyExists
  | none => return fs.set place .directory

/-- As `makeDirectory`, but a directory that is there already will do. -/
def ensureDirectory (fs : FileSystem) (location : String) : Except IoKind FileSystem :=
  match fs.makeDirectory location with
  | .ok fs => .ok fs
  | .error e => if fs.isDirectory location then .ok fs else .error e

/-- The first of some directories, each of which is in the next, with those of the rest that are
missing. Where it fails, those it has made stay. -/
def makeChain (fs : FileSystem) : List String → Except IoKind Unit × FileSystem
  | [] => (.ok (), fs)
  | location :: above =>
    match fs.makeDirectory location with
    | .ok fs => (.ok (), fs)
    | .error .notFound =>
      match makeChain fs above with
      | (.error e, fs) => (.error e, fs)
      | (.ok (), fs) =>
        match fs.ensureDirectory location with
        | .ok fs => (.ok (), fs)
        | .error e => (.error e, fs)
    | .error e => if fs.isDirectory location then (.ok (), fs) else (.error e, fs)

/-- A directory, with all those above it that are missing. -/
def makeDirectories (fs : FileSystem) (location : String) : Except IoKind Unit × FileSystem :=
  fs.makeChain (location :: (parts location).drop 1)

/-- Opens a file for writing: it is made, or emptied. -/
def create (fs : FileSystem) (location : String) : Except IoKind FileSystem := do
  let place ← fs.locate location
  if endsInSeparator location then throw .isADirectory
  match fs.node? place with
  | some .directory => throw .isADirectory
  | _ => return fs.set place (.file [])

/-- Opens a file for writing in a directory that is made if it is missing. -/
def createWithin (fs : FileSystem) (location : String) : Except IoKind Unit × FileSystem :=
  let (made, fs) := match parent? location with
    | some directory => fs.makeDirectories directory
    | none => (.ok (), fs)
  match made with
  | .error e => (.error e, fs)
  | .ok () =>
    match fs.create location with
    | .ok fs => (.ok (), fs)
    | .error e => (.error e, fs)

/-- What the file at a location, opened before, now holds. -/
def write (fs : FileSystem) (location : String) (bytes : List UInt8) : FileSystem :=
  match fs.locate location with
  | .ok place => fs.set place (.file bytes)
  | .error _ => fs

/-- Opens for reading. A directory opens, and its first read fails. -/
def openSource (fs : FileSystem) (location : String) : Except IoKind Source := do
  match ← fs.find location with
  | .directory => return { Source.ofBytes [] with failure := some IoKind.isADirectory.error }
  | .file bytes => return Source.ofBytes bytes

def read (fs : FileSystem) (location : String) : Except IoKind (List UInt8) := do
  match ← fs.find location with
  | .directory => throw .isADirectory
  | .file bytes => return bytes

end FileSystem

end SkidSteer.Storage
