import SkidSteer.Demand
import SkidSteer.Registry

namespace SkidSteer

structure Target where
  id : String
  options : RunOptions
  deriving DecidableEq

structure Shared where
  registry : Registry
  target : Option Target
  /-- A target was accepted and its run has not begun. -/
  pending : Bool
  /-- No path is being driven; only the engine changes it. -/
  settled : Bool
  /-- The sample last sent of a run; only the engine changes it. -/
  runningIndex : Option Nat
  cancelRequests : Nat
  /-- The number of cancel requests when the engine last stood still. -/
  cancelsHandled : Nat
  disabled : Bool
  shutDown : Bool

/-- What a caller can ask for, as one step that nothing interleaves with. A reset is two of them,
`cancel` and then `enable`. -/
inductive Request where
  | register (id : String) (path : Path)
  | remove (id : String)
  | setTarget (target : Target)
  | setDisabled (disabled : Bool)
  | cancel
  | enable
  | shutDown

namespace Shared

def initial : Shared := ⟨.empty, none, false, true, none, 0, 0, false, false⟩

/-- Nothing is driven and nothing will be. Disabled counts as settled whatever the engine does. -/
def isSettled (s : Shared) : Bool := s.disabled || (s.settled && !s.pending)

/-- A target is accepted when its path is known and the controller is enabled. -/
def accepts (s : Shared) (t : Target) : Bool := s.registry.contains t.id && !s.disabled

/-- The target becomes pending if it is accepted, and is recorded in any case. -/
def setTarget (s : Shared) (t : Target) : Shared :=
  { s with target := some t, pending := s.accepts t }

/-- Disabling drops a pending target; enabling changes only the flag. -/
def setDisabled (s : Shared) (disabled : Bool) : Shared :=
  { s with disabled, pending := s.pending && !disabled }

def cancel (s : Shared) : Shared :=
  { s with target := none, pending := false, cancelRequests := s.cancelRequests + 1 }

def serve (s : Shared) : Request → Shared
  | .register id path => { s with registry := s.registry.insert id path }
  | .remove id => { s with registry := s.registry.erase id }
  | .setTarget t => s.setTarget t
  | .setDisabled disabled => s.setDisabled disabled
  | .cancel => s.cancel
  | .enable => { s with disabled := false }
  | .shutDown => { s with shutDown := true }

/-- The engine stands still: what was asked to be cancelled is. -/
def rest (s : Shared) : Shared :=
  { s with settled := true, runningIndex := none, cancelsHandled := s.cancelRequests }

def begin (s : Shared) : Shared := { s with pending := false, settled := false, runningIndex := none }

/-- The target with its path, if the path is still there. -/
def wanted (s : Shared) : Option (Target × Path) :=
  s.target.bind fun t => (s.registry.get? t.id).map fun path => (t, path)

end Shared

end SkidSteer
