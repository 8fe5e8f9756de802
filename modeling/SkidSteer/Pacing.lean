import SkidSteer.Duration

namespace SkidSteer

/-- What a clock shows that only goes forward, in nanoseconds since it began. -/
structure Tick where
  nanoseconds : Nat
  deriving DecidableEq, Repr

/-- Where the clock ends: its seconds are counted below `2 ^ 63`. -/
def Tick.limit : Nat := Nat.pow 2 63 * Duration.perSecond

def Tick.add? (t : Tick) (d : Duration) : Option Tick :=
  let sum := t.nanoseconds + d.nanoseconds
  if sum < Tick.limit then some ⟨sum⟩ else none

/-- Paces a loop: a round is due one period after the loop last woke. -/
structure Rate where
  lastWake : Option Tick
  deriving DecidableEq

namespace Rate

/-- The first round is measured from its end. -/
def new : Rate := ⟨none⟩

/-- When the loop sleeps at the end of a round, until it is a period since it last woke. A loop that
is late by more than a period wakes at once and counts from now. A loop whose next round is past the
end of the clock breaks off. -/
def delay? (r : Rate) (now : Tick) (period : Duration) : Option Rate :=
  ((r.lastWake.getD now).add? period).map fun due =>
    if due.nanoseconds + period.nanoseconds < now.nanoseconds then ⟨some now⟩ else ⟨some due⟩

/-- The first of so many rounds, the next one `round`, after which the loop breaks off. `clock`
shows the end of each round. -/
def broken? (clock : Nat → Tick) (period : Duration) : (rounds round : Nat) → Rate → Option Nat
  | 0, _, _ => none
  | rounds + 1, round, r =>
    match r.delay? (clock round) period with
    | none => some round
    | some r => broken? clock period rounds (round + 1) r

end Rate

def stillClock : Nat → Tick := fun _ => ⟨0⟩

end SkidSteer
