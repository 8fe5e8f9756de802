namespace SkidSteer

/-- A place that the chassis passes, in metres, and the direction it passes in, in radians from the
first axis. -/
structure Waypoint (α : Type) where
  x : α
  y : α
  heading : α
  deriving Repr, DecidableEq

structure Limits (α : Type) where
  velocity : α
  acceleration : α
  jerk : α
  deriving Repr, DecidableEq

/-- The motion of one wheel's contact point at one time step. -/
structure Segment (α : Type) where
  position : α
  velocity : α
  acceleration : α
  deriving Repr, DecidableEq

namespace Segment

variable {α β : Type}

def map (f : α → β) (s : Segment α) : Segment β :=
  ⟨f s.position, f s.velocity, f s.acceleration⟩

def reversed [Neg α] (s : Segment α) : Segment α := s.map (- ·)

def all (p : α → Bool) (s : Segment α) : Bool :=
  p s.position && p s.velocity && p s.acceleration

end Segment

inductive Side where
  | left
  | right
  deriving Repr, DecidableEq

def Side.name : Side → String
  | .left => "left"
  | .right => "right"

structure Sample (α : Type) where
  left : Segment α
  right : Segment α
  deriving Repr, DecidableEq

namespace Sample

variable {α β : Type}

def map (f : α → β) (s : Sample α) : Sample β := ⟨s.left.map f, s.right.map f⟩

def side (s : Sample α) : Side → Segment α
  | .left => s.left
  | .right => s.right

def swapped (s : Sample α) : Sample α := ⟨s.right, s.left⟩

def reversed [Neg α] (s : Sample α) : Sample α := ⟨s.left.reversed, s.right.reversed⟩

def all (p : α → Bool) (s : Sample α) : Bool := s.left.all p && s.right.all p

end Sample

/-- Samples in time order. One without samples is an empty path. -/
structure Trajectory (α : Type) where
  samples : Array (Sample α)
  deriving DecidableEq

namespace Trajectory

variable {α β : Type}

def empty : Trajectory α := ⟨#[]⟩

def size (t : Trajectory α) : Nat := t.samples.size

def isEmpty (t : Trajectory α) : Bool := t.samples.isEmpty

def get? (t : Trajectory α) (i : Nat) : Option (Sample α) := t.samples[i]?

def map (f : α → β) (t : Trajectory α) : Trajectory β := ⟨t.samples.map (Sample.map f)⟩

def side (t : Trajectory α) (s : Side) : List (Segment α) := t.samples.toList.map (·.side s)

/-- The trajectory with the given wheels, if they have equally many segments. -/
def ofSides? (left right : List (Segment α)) : Option (Trajectory α) :=
  if left.length = right.length then some ⟨(List.zipWith Sample.mk left right).toArray⟩ else none

@[simp] theorem size_map (f : α → β) (t : Trajectory α) : (t.map f).size = t.size := by
  simp [map, size]

@[simp] theorem length_side (t : Trajectory α) (s : Side) : (t.side s).length = t.size := by
  simp [side, size]

theorem ofSides?_side (t : Trajectory α) :
    ofSides? (t.side .left) (t.side .right) = some t := by
  have h : ∀ l : List (Sample α),
      List.zipWith Sample.mk (l.map (·.side .left)) (l.map (·.side .right)) = l := by
    intro l
    induction l with
    | nil => rfl
    | cons s r ih => simp only [List.map_cons, List.zipWith_cons_cons, ih]; rfl
  simp [ofSides?, side, h]

theorem ofSides?_of_length_eq {left right : List (Segment α)} (h : left.length = right.length) :
    ∃ t, ofSides? left right = some t ∧ t.side .left = left ∧ t.side .right = right := by
  refine ⟨⟨(List.zipWith Sample.mk left right).toArray⟩, by simp [ofSides?, h], ?_⟩
  simp only [side]
  induction left generalizing right with
  | nil =>
    cases right with
    | nil => exact ⟨rfl, rfl⟩
    | cons r right => contradiction
  | cons l left ih =>
    cases right with
    | nil => contradiction
    | cons r right =>
      obtain ⟨hleft, hright⟩ := ih (Nat.succ.inj h)
      rw [List.zipWith_cons_cons, List.map_cons, List.map_cons, hleft, hright]
      exact ⟨rfl, rfl⟩

end Trajectory

end SkidSteer
