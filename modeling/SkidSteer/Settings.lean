import SkidSteer.Demand
import SkidSteer.Record.Value
import SkidSteer.Toml.Document

namespace SkidSteer

open Record

def Waypoint.ofValue? (v : Value) : Option (Waypoint Float) := do
  match ← v.fields? ["position_m", "heading_rad"] with
  | [position, heading] =>
    let (x, y) ← required (Value.pair? Value.number?) position
    return ⟨x, y, ← required Value.number? heading⟩
  | _ => none

def Segment.ofValue? (v : Value) : Option (Segment Float) := do
  match ← v.fields? ["position_m", "velocity_ms", "accel_mss"] with
  | [position, velocity, acceleration] =>
    return ⟨← required Value.number? position, ← required Value.number? velocity,
      ← required Value.number? acceleration⟩
  | _ => none

def Limits.ofValue? (v : Value) : Option (Limits Float) := do
  match ← v.fields? ["max_vel_ms", "max_accel_mss", "max_jerk_msss"] with
  | [velocity, acceleration, jerk] =>
    return ⟨← required Value.number? velocity, ← required Value.number? acceleration,
      ← required Value.number? jerk⟩
  | _ => none

def RunOptions.ofValue? (v : Value) : Option RunOptions := do
  match ← v.fields? ["reverse", "mirrored"] with
  | [reverse, mirrored] =>
    return ⟨← optional forward.reverse Value.boolean? reverse,
      ← optional forward.mirrored Value.boolean? mirrored⟩
  | _ => none

def Geometry.ofValue? (v : Value) : Option (Geometry Float) := do
  match ← v.fields? ["wheel_diameter_m", "wheel_track_m"] with
  | [diameter, track] =>
    return ⟨← required Value.number? diameter, ← required Value.number? track⟩
  | _ => none

/-- A unit is given by its name, which may be the key of an empty table in braces. -/
def CommandUnit.ofValue? : Value → Option CommandUnit
  | .text name => ofName? name
  | .table .braced [(name, .table .braced [])] => ofName? name
  | _ => none

def Params.ofValue? (v : Value) : Option (Params Float) := do
  match ← v.fields? ["limits", "scales", "gear_ratio", "command_unit", "max_motor_rpm",
      "sample_period_s", "storage_root"] with
  | [limits, geometry, gearRatio, unit, maxMotorSpeed, samplePeriod, storageRoot] =>
    let base := ofGeometry (← required Limits.ofValue? limits)
      (← required Geometry.ofValue? geometry) 1.0
    return { base with
      gearRatio := ← optional base.gearRatio Value.number? gearRatio
      unit := ← optional base.unit CommandUnit.ofValue? unit
      maxMotorSpeed := ← optional base.maxMotorSpeed Value.number? maxMotorSpeed
      samplePeriod := ← optional base.samplePeriod Value.number? samplePeriod
      storageRoot := ← optional base.storageRoot Value.text? storageRoot }
  | _ => none

def Params.parse? (document : String) : Option (Params Float) :=
  (Toml.parse? document).bind ofValue?

structure Leg where
  id : String
  waypoints : List (Waypoint Float)
  options : RunOptions

structure Mission where
  directory : String
  chassisLimit : Float
  legs : List Leg

def Leg.ofValue? (v : Value) : Option Leg := do
  match ← v.fields? ["id", "waypoints", "options"] with
  | [id, waypoints, options] =>
    return ⟨← required Value.text? id, ← required (Value.list? Waypoint.ofValue?) waypoints,
      ← optional .forward RunOptions.ofValue? options⟩
  | _ => none

def Mission.ofValue? (v : Value) : Option Mission := do
  match ← v.fields? ["path_dir", "chassis_max_velocity", "paths"] with
  | [directory, limit, legs] =>
    return ⟨← required Value.text? directory, ← required Value.number? limit,
      ← required (Value.list? Leg.ofValue?) legs⟩
  | _ => none

def Mission.parse? (document : String) : Option Mission :=
  (Toml.parse? document).bind ofValue?

end SkidSteer
