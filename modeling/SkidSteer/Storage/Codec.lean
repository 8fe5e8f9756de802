import SkidSteer.Registry
import SkidSteer.Storage.Stream
import SkidSteer.Text.Quoted

namespace SkidSteer.Storage

inductive StoreError where
  | lengthMismatch (left right : Nat)
  | missingCount (side : Side)
  | truncated (side : Side) (read expected : Nat)
  | tooLong (size : Nat)
  | openFailed (location : String) (error : IoError)
  | ioFailed (error : IoError)
  deriving DecidableEq

namespace StoreError

/-- Whether the data is at fault, and not the access to it. -/
def isCorrupt : StoreError → Bool
  | .lengthMismatch .. | .missingCount _ | .truncated .. => true
  | .tooLong _ | .openFailed .. | .ioFailed _ => false

def message : StoreError → String
  | .lengthMismatch left right =>
    "Corrupt path data: the left side has " ++ toString left
      ++ " samples but the right side has " ++ toString right
  | .missingCount side => "Corrupt path data: the " ++ side.name ++ " stream has no sample count"
  | .truncated side read expected =>
    "Corrupt path data: the " ++ side.name ++ " stream ended after " ++ toString read ++ " of "
      ++ toString expected ++ " samples"
  | .tooLong size => "Path has too many samples to store (" ++ toString size ++ ")"
  | .openFailed location error =>
    "Could not open path file " ++ Text.quoted location ++ ": " ++ error.detail
  | .ioFailed error => "IO error while accessing path data: " ++ error.detail

end StoreError

/-- The lowest `count` bytes of a number, the lowest first. -/
def littleEndian : (count n : Nat) → List UInt8
  | 0, _ => []
  | count + 1, n => UInt8.ofNat n :: littleEndian count (n / 256)

def ofLittleEndian : List UInt8 → Nat
  | [] => 0
  | byte :: rest => byte.toNat + 256 * ofLittleEndian rest

def wordBytes (w : Binary64) : List UInt8 := littleEndian 8 w.bits.toNat

def wordOfBytes (bytes : List UInt8) : Binary64 := ⟨UInt64.ofNat (ofLittleEndian bytes)⟩

def segmentFields (s : Segment Binary64) : List (List UInt8) :=
  [wordBytes s.position, wordBytes s.velocity, wordBytes s.acceleration]

def sideFields (segments : List (Segment Binary64)) : List (List UInt8) :=
  littleEndian 4 segments.length :: segments.flatMap segmentFields

/-- The number of samples in four bytes, then three words of eight bytes for each. -/
def encoding (segments : List (Segment Binary64)) : List UInt8 := (sideFields segments).flatten

/-- How many samples a count of four bytes can tell apart. -/
def countLimit : Nat := Nat.pow 2 32

def writeSide (segments : List (Segment Binary64)) (sink : Sink) : Except StoreError Unit × Sink :=
  if countLimit ≤ segments.length then (.error (.tooLong segments.length), sink)
  else
    match sink.writeAll (sideFields segments) with
    | (.error e, sink) => (.error (.ioFailed e), sink)
    | (.ok (), sink) =>
      match sink.flush with
      | .error e => (.error (.ioFailed e), sink)
      | .ok () => (.ok (), sink)

/-- Writes the left side and flushes it before the right side is begun. -/
def encode (path : Path) (left right : Sink) : Except StoreError Unit × Sink × Sink :=
  match writeSide (path.side .left) left with
  | (.error e, left) => (.error e, left, right)
  | (.ok (), left) =>
    let (result, right) := writeSide (path.side .right) right
    (result, left, right)

/-- A stream that ends too early lacks data; any other failure is the stream's. -/
def faultOf (corrupt : StoreError) (error : IoError) : StoreError :=
  if error.kind = .unexpectedEnd then corrupt else .ioFailed error

def readCount (side : Side) (source : Source) : Except StoreError Nat × Source :=
  match source.read 4 with
  | (.ok bytes, source) => (.ok (ofLittleEndian bytes), source)
  | (.error e, source) => (.error (faultOf (.missingCount side) e), source)

def readSegment (source : Source) : Except IoError (Segment Binary64) × Source :=
  match source.read 8 with
  | (.error e, source) => (.error e, source)
  | (.ok position, source) =>
    match source.read 8 with
    | (.error e, source) => (.error e, source)
    | (.ok velocity, source) =>
      match source.read 8 with
      | (.error e, source) => (.error e, source)
      | (.ok acceleration, source) =>
        (.ok ⟨wordOfBytes position, wordOfBytes velocity, wordOfBytes acceleration⟩, source)

/-- `more` segments after those in `done`, of `expected` in all. -/
def readSegments (side : Side) (expected : Nat) :
    (more : Nat) → Array (Segment Binary64) → Source →
      Except StoreError (Array (Segment Binary64)) × Source
  | 0, done, source => (.ok done, source)
  | more + 1, done, source =>
    match readSegment source with
    | (.ok segment, source) => readSegments side expected more (done.push segment) source
    | (.error e, source) => (.error (faultOf (.truncated side done.size expected) e), source)

def readSide (side : Side) (count : Nat) (source : Source) :
    Except StoreError (Array (Segment Binary64)) × Source :=
  readSegments side count count #[] source

/-- Both counts are read before any sample, and all left samples before the right ones. -/
def decode (left right : Source) : Except StoreError Path × Source × Source :=
  match readCount .left left with
  | (.error e, left) => (.error e, left, right)
  | (.ok leftCount, left) =>
    match readCount .right right with
    | (.error e, right) => (.error e, left, right)
    | (.ok rightCount, right) =>
      if leftCount ≠ rightCount then (.error (.lengthMismatch leftCount rightCount), left, right)
      else
        match readSide .left leftCount left with
        | (.error e, left) => (.error e, left, right)
        | (.ok leftSegments, left) =>
          match readSide .right rightCount right with
          | (.error e, right) => (.error e, left, right)
          | (.ok rightSegments, right) =>
            match Trajectory.ofSides? leftSegments.toList rightSegments.toList with
            | some path => (.ok path, left, right)
            | none => (.error (.lengthMismatch leftCount rightCount), left, right)

end SkidSteer.Storage
