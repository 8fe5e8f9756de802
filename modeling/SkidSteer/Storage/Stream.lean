namespace SkidSteer.Storage

inductive IoKind where
  | notFound
  | permissionDenied
  | alreadyExists
  | notADirectory
  | isADirectory
  | nameTooLong
  | invalidInput
  | unexpectedEnd
  | writeZero
  | other
  deriving DecidableEq, Repr

structure IoError where
  kind : IoKind
  detail : String
  deriving DecidableEq, Repr

/-- What one read delivers: nothing yet, or at most this many bytes and one more. -/
inductive Delivery where
  | interrupted
  | upTo (more : Nat)
  deriving DecidableEq, Repr

structure Source where
  /-- The bytes still to come. -/
  rest : List UInt8
  /-- How the next reads are delivered; later ones give all they are asked for. -/
  deliveries : List Delivery
  /-- The failure after the last byte, unless the stream ends there. -/
  failure : Option IoError
  /-- How many bytes were read. -/
  taken : Nat

namespace Source

def ofBytes (bytes : List UInt8) : Source := ⟨bytes, [], none, 0⟩

def gather (count : Nat) (bytes : List UInt8) :
    List Delivery → List UInt8 × List UInt8 × List Delivery
  | [] => (bytes.take count, bytes.drop count, [])
  | delivery :: later =>
    if count = 0 ∨ bytes = [] then ([], bytes, delivery :: later)
    else
      match delivery with
      | .interrupted => gather count bytes later
      | .upTo more =>
        let size := min count (more + 1)
        let (got, left, later) := gather (count - size) (bytes.drop size) later
        (bytes.take size ++ got, left, later)

def endOfStream : IoError := ⟨.unexpectedEnd, "failed to fill whole buffer"⟩

/-- Exactly `count` bytes. When they are not there, those that are have been read all the same. -/
def read (s : Source) (count : Nat) : Except IoError (List UInt8) × Source :=
  let (got, left, later) := gather count s.rest s.deliveries
  let after := ⟨left, later, s.failure, s.taken + got.length⟩
  if got.length = count then (.ok got, after) else (.error (s.failure.getD endOfStream), after)

/-- However the bytes are delivered, the first `count` are gathered and the others stay. -/
theorem gather_bytes (deliveries : List Delivery) :
    ∀ (count : Nat) (bytes : List UInt8),
      (gather count bytes deliveries).1 = bytes.take count ∧
      (gather count bytes deliveries).2.1 = bytes.drop count := by
  induction deliveries with
  | nil =>
    intro count bytes
    exact ⟨rfl, rfl⟩
  | cons delivery later ih =>
    intro count bytes
    unfold gather
    split
    · rename_i h
      rcases h with h | h <;> subst h <;> simp
    · cases delivery with
      | interrupted => exact ih count bytes
      | upTo more =>
        obtain ⟨hgot, hleft⟩ := ih (count - min count (more + 1)) (bytes.drop (min count (more + 1)))
        have hsum : min count (more + 1) + (count - min count (more + 1)) = count := by omega
        refine ⟨?_, ?_⟩
        · simp only [hgot, ← List.take_add, hsum]
        · simp only [hleft, List.drop_drop, hsum]

end Source

inductive WhenFull where
  | takesNothing
  | fails (error : IoError)
  deriving DecidableEq, Repr

structure Sink where
  accepted : Array UInt8
  /-- How many more bytes it takes; without a number, any. -/
  room : Option Nat
  whenFull : WhenFull
  flushFailure : Option IoError

namespace Sink

def unlimited : Sink := ⟨#[], none, .takesNothing, none⟩

def fullError (s : Sink) : IoError :=
  match s.whenFull with
  | .takesNothing => ⟨.writeZero, "failed to write whole buffer"⟩
  | .fails error => error

def write (s : Sink) (bytes : List UInt8) : Except IoError Unit × Sink :=
  match s.room with
  | none => (.ok (), { s with accepted := s.accepted ++ bytes })
  | some room =>
    if bytes.length ≤ room then
      (.ok (), { s with accepted := s.accepted ++ bytes, room := some (room - bytes.length) })
    else
      (.error s.fullError, { s with accepted := s.accepted ++ bytes.take room, room := some 0 })

def flush (s : Sink) : Except IoError Unit :=
  match s.flushFailure with
  | some error => .error error
  | none => .ok ()

def writeAll (s : Sink) : List (List UInt8) → Except IoError Unit × Sink
  | [] => (.ok (), s)
  | field :: more =>
    match s.write field with
    | (.ok (), s) => s.writeAll more
    | (.error e, s) => (.error e, s)

end Sink

end SkidSteer.Storage
