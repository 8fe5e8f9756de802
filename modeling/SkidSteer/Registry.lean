import SkidSteer.Binary64
import SkidSteer.Trajectory

namespace SkidSteer

/-- A trajectory as it is kept, driven and stored. -/
abbrev Path := Trajectory Binary64

/-- Paths under their ids, in the order in which the ids were first inserted. -/
structure Registry where
  entries : List (String × Path)

namespace Registry

def empty : Registry := ⟨[]⟩

def ids (r : Registry) : List String := r.entries.map (·.1)

def size (r : Registry) : Nat := r.entries.length

def isEmpty (r : Registry) : Bool := r.entries.isEmpty

def get? (r : Registry) (id : String) : Option Path := r.entries.lookup id

def contains (r : Registry) (id : String) : Bool := (r.get? id).isSome

/-- The entries with the path under `id` replaced where it stands, or added at the end. -/
def put (id : String) (path : Path) : List (String × Path) → List (String × Path)
  | [] => [(id, path)]
  | entry :: rest =>
    if entry.1 = id then (id, path) :: rest else entry :: put id path rest

/-- Keeps a path that is not empty; an empty one changes nothing. -/
def insert (r : Registry) (id : String) (path : Path) : Registry :=
  if path.isEmpty then r else ⟨put id path r.entries⟩

def erase (r : Registry) (id : String) : Registry :=
  ⟨r.entries.eraseP (·.1 == id)⟩

end Registry

end SkidSteer
