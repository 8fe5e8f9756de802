import SkidSteer.Control.Shared
import SkidSteer.Drivetrain
import SkidSteer.Log.Notice

namespace SkidSteer

/-- A path being driven. `ticket` is the number of cancel requests when it was taken up. -/
structure Run where
  target : Target
  path : Path
  ticket : Nat

/-- What the engine does next. A step is one section under the lock, one look at a flag, or one
thing said to the chassis; requests of callers may come between any two. The sleep after a sample is
no step: how long it is, and whether the engine comes out of it, is said by `Rate`. -/
inductive Stage where
  /-- Looks for something to do, under the lock. -/
  | idle
  | starting (run : Run)
  /-- Begins the sample of this index, or ends after the last one: looks whether to shut down. -/
  | sample (run : Run) (index : Nat)
  /-- Looks whether it is disabled. -/
  | enabled (run : Run) (index : Nat)
  /-- Looks for requests, under the lock. -/
  | requests (run : Run) (index : Nat)
  | sending (run : Run) (index : Nat)
  | ending (run : Run) (reason : RunEnd)
  /-- Tells, under the lock, that it stands still. -/
  | resting
  | stopping
  | finished

inductive Output where
  | notice (n : Notice)
  | command (c : Command Float)

def Path.sample? (path : Path) (index : Nat) : Option (Sample Float) :=
  (path.get? index).map (Sample.map Binary64.toFloat)

namespace Run

/-- What the chassis is told for one sample. -/
def command (run : Run) (converter : Converter Float) (sample : Sample Float) : Command Float :=
  let (left, right) := converter.demands run.target.options sample
  .drive left right

end Run

namespace Stage

/-- Looking for something to do: shut down, answer a cancel request, or take up a pending target.
Where a run gave way to a target that is gone, the chassis is stopped here. -/
def idleStep (s : Shared) : Shared × Stage × List Output :=
  if s.shutDown then (s, .stopping, [])
  else
    let (s, answered) :=
      if s.cancelsHandled ≠ s.cancelRequests then (s.rest, [Output.command .stop]) else (s, [])
    let (s, found, missed) :=
      if s.pending && !s.disabled then
        match s.wanted with
        | some (target, path) =>
          (s.begin, some (Run.mk target path s.cancelRequests), [])
        | none => ({ s with pending := false }, none, [Output.notice .pendingGone])
      else (s, none, [])
    match found with
    | some run => (s, .starting run, answered)
    | none =>
      if s.settled then (s, .idle, answered ++ missed)
      else
        ({ s with settled := true, runningIndex := none }, .idle,
          answered ++ missed ++ [.command .stop])

def step (converter : Converter Float) (s : Shared) : Stage → Shared × Stage × List Output
  | .idle => idleStep s
  | .starting run =>
    (s, .sample run 0,
      [.notice (.starting run.target.id run.path.size run.target.options)])
  | .sample run index =>
    if run.path.size ≤ index then (s, .ending run .complete, [])
    else if s.shutDown then (s, .ending run .shutdown, [])
    else (s, .enabled run index, [])
  | .enabled run index =>
    if s.disabled then (s, .ending run .disabled, []) else (s, .requests run index, [])
  | .requests run index =>
    if s.cancelRequests ≠ run.ticket then (s, .ending run .cancelled, [])
    else if s.pending then (s, .ending run .preempted, [])
    else ({ s with runningIndex := some index }, .sending run index, [])
  | .sending run index =>
    (s, .sample run (index + 1),
      match run.path.sample? index with
      | some wheels => [.command (run.command converter wheels)]
      | none => [])
  | .ending run reason =>
    let told := Output.notice (.ended run.target.id reason)
    if reason = .preempted then (s, .idle, [told]) else (s, .resting, [told, .command .stop])
  | .resting => (s.rest, .idle, [])
  | .stopping => (s, .finished, [.command .stop, .notice .engineStopped])
  | .finished => (s, .finished, [])

/-- A sample was just sent, and the one after it is not begun. -/
def isHeld : Stage → Bool
  | .sample _ (_ + 1) => true
  | _ => false

/-- So many samples of a run were sent, and the next one is not begun. -/
def hasSent (count : Nat) : Stage → Bool
  | .sample _ index => index == count
  | _ => false

/-- Nothing happens until a request comes, or ever again. -/
def isBlocked (s : Shared) : Stage → Bool
  | .idle =>
    !s.shutDown && s.cancelsHandled == s.cancelRequests && !(s.pending && !s.disabled) && s.settled
  | .finished => true
  | _ => false

/-- The samples that the engine has still to send when no further request comes, at most. -/
def samplesLeft (s : Shared) (stage : Stage) : Nat :=
  let waiting := match s.wanted with
    | some (_, path) => path.size
    | none => 0
  match stage with
  | .starting run => run.path.size + waiting
  | .sample run index | .enabled run index | .requests run index | .sending run index =>
    run.path.size - index + waiting
  | _ => waiting

/-- Enough steps for the engine to block when no further request comes: four for each sample, and
those of taking up and ending two runs. -/
def stepsLeft (s : Shared) (stage : Stage) : Nat := 4 * samplesLeft s stage + 20

end Stage

end SkidSteer
