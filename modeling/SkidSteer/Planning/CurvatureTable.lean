import SkidSteer.Planning.Spline

namespace SkidSteer

/-- The curvature at a distance from the start of the path. -/
structure Mark (α : Type) where
  distance : α
  curvature : α
  deriving DecidableEq

structure CurvatureTable (α : Type) where
  marks : Array (Mark α)

namespace CurvatureTable

variable {α : Type} [Scalar α]

def stepsPerSpline : Nat := 1000

def empty : CurvatureTable α := ⟨#[]⟩

@[specialize] def length (t : CurvatureTable α) : α :=
  match t.marks.back? with
  | some mark => mark.distance
  | none => 0.0

/-- Marks at the ends of the steps numbered from `step`, as many as the first argument says. -/
@[specialize] def addSteps (spline : Spline α) (width : α) :
    Nat → Nat → α → Array (Mark α) → Array (Mark α)
  | 0, _, _, marks => marks
  | more + 1, step, distance, marks =>
    let middle := (Scalar.ofCount step + 0.5) * width
    let next := distance + Scalar.sqrt (1.0 + Scalar.square (spline.slope middle)) * width
    addSteps spline width more (step + 1) next
      (marks.push ⟨next, spline.curvature (Scalar.ofCount (step + 1) * width)⟩)

/-- A curve begins where the table ends, so a joint of two curves has a mark for each. -/
@[specialize] def addSpline (t : CurvatureTable α) (spline : Spline α) : CurvatureTable α :=
  let start := t.length
  ⟨addSteps spline (spline.chord / Scalar.ofCount stepsPerSpline) stepsPerSpline 0 start
    (t.marks.push ⟨start, spline.curvature 0.0⟩)⟩

@[specialize] def ofSplines (splines : List (Spline α)) : CurvatureTable α :=
  splines.foldl addSpline empty

/-- Where the first mark lies that is not before `distance`, between `low` and `high`, found by
halving. -/
@[specialize] def findFrom (marks : Array (Mark α)) (distance : α) (low high : Nat)
    (within : high ≤ marks.size) : Nat :=
  if below : low < high then
    have inside : (low + high) / 2 < marks.size := by omega
    if marks[(low + high) / 2].distance < distance then
      findFrom marks distance ((low + high) / 2 + 1) high within
    else findFrom marks distance low ((low + high) / 2) (by omega)
  else low
termination_by high - low
decreasing_by all_goals omega

/-- The curvature of the first mark that is not before `distance`; past the table, of the last. -/
@[specialize] def curvatureAt (t : CurvatureTable α) (distance : α) : α :=
  match t.marks[findFrom t.marks distance 0 t.marks.size (Nat.le_refl _)]? with
  | some mark => mark.curvature
  | none =>
    match t.marks.back? with
    | some mark => mark.curvature
    | none => 0.0

end CurvatureTable

end SkidSteer
