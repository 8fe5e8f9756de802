import SkidSteer.Planning.CurvatureTable
import SkidSteer.Planning.VelocityProfile

namespace SkidSteer

structure Planner (α : Type) where
  wheelTrack : α
  samplePeriod : α
  deriving DecidableEq

/-- A planned path; one of fewer than two waypoints is empty. -/
inductive Plan (α : Type) where
  | empty
  | path (length : α) (waypoints : Nat) (trajectory : Trajectory α)

namespace Plan

def trajectory {α : Type} : Plan α → Trajectory α
  | .empty => .empty
  | .path _ _ t => t

end Plan

namespace Planner

variable {α : Type} [Scalar α]

def mostSamples : Nat := 10000000

/-- The speeds, or accelerations, of the left and the right wheel when the middle has `middle`. -/
@[specialize] def split (p : Planner α) (middle curvature : α) : α × α :=
  let offset := curvature * p.wheelTrack / 2.0
  (middle * (1.0 - offset), middle * (1.0 + offset))

def firstSegment (velocity acceleration : α) : Segment α := ⟨0.0, velocity, acceleration⟩

/-- The segment one period later: the position moves by the mean of both speeds. -/
@[specialize] def nextSegment (p : Planner α) (previous : Segment α) (velocity : α) : Segment α :=
  ⟨previous.position + 0.5 * (previous.velocity + velocity) * p.samplePeriod, velocity,
    (velocity - previous.velocity) / p.samplePeriod⟩

/-- The sample at step `index`, given the one before it. -/
@[specialize] def sampleAt (p : Planner α) (table : CurvatureTable α)
    (profile : VelocityProfile α) (index : Nat) (previous : Option (Sample α)) : Sample α :=
  let motion := profile.motionAt (Scalar.ofCount index * p.samplePeriod)
  let curvature := table.curvatureAt motion.distance
  let (left, right) := p.split motion.velocity curvature
  match previous with
  | some before => ⟨p.nextSegment before.left left, p.nextSegment before.right right⟩
  | none =>
    let (leftAcceleration, rightAcceleration) := p.split motion.acceleration curvature
    ⟨firstSegment left leftAcceleration, firstSegment right rightAcceleration⟩

/-- The samples from step `index` on, as many as `more` says, after those in `done`. -/
@[specialize] def samplesFrom (p : Planner α) (table : CurvatureTable α)
    (profile : VelocityProfile α) :
    (more index : Nat) → Option (Sample α) → Array (Sample α) → Array (Sample α)
  | 0, _, _, done => done
  | more + 1, index, previous, done =>
    let sample := p.sampleAt table profile index previous
    samplesFrom p table profile more (index + 1) (some sample) (done.push sample)

/-- One sample at the start, and one for each period begun until the profile ends. -/
@[specialize] def sampleCount (p : Planner α) (profile : VelocityProfile α) : α :=
  Scalar.ceiling (profile.duration / p.samplePeriod) + 1.0

/-- The trajectory that follows a profile along tabulated curves. -/
@[specialize] def follow (p : Planner α) (table : CurvatureTable α)
    (profile : VelocityProfile α) : Except (PlanError α) (Trajectory α) :=
  let count := p.sampleCount profile
  if !Scalar.isFinite count || decide (Scalar.ofCount mostSamples < count) then
    .error (.tooManySamples count mostSamples)
  else
    let samples := p.samplesFrom table profile (Scalar.toCount count) 0 none #[]
    if samples.all (Sample.all Scalar.isFinite) then .ok ⟨samples⟩ else .error .nonFinite

/-- A trajectory through all waypoints in order. The limits are looked at before the period, and
both before the waypoints. -/
@[specialize] def plan (p : Planner α) (waypoints : List (Waypoint α)) (limits : Limits α) :
    Except (PlanError α) (Plan α) :=
  if !limits.isValid then .error (.invalidLimits limits)
  else if !Scalar.isPositive p.samplePeriod then .error (.invalidSamplePeriod p.samplePeriod)
  else if waypoints.length < 2 then .ok .empty
  else
    match Spline.fitAll waypoints with
    | .error e => .error e
    | .ok splines =>
      let table := CurvatureTable.ofSplines splines
      match p.follow table (VelocityProfile.ofDistance table.length limits) with
      | .error e => .error e
      | .ok trajectory => .ok (.path table.length waypoints.length trajectory)

end Planner

end SkidSteer
