import SkidSteer.Proofs.Mission.Driven

namespace SkidSteer

open Storage FileSystem

def Event.report? : Event → Option Report
  | .entry (.report r) => some r
  | _ => none

@[simp] theorem Event.report?_ofReport (r : Report) : (ofReport r).report? = some r := rfl

@[simp] theorem Event.report?_command (c : Command Float) : (command c).report? = none := rfl

def Outcome.reports (o : Outcome) : List Report := o.events.filterMap Event.report?

def Outcome.velocities (limit : Float) (o : Outcome) : List (Float × Float) :=
  o.commands.map (Command.velocities (Scalar.abs limit))

namespace Leg

variable {params : Params Float} {limit : Float} {leg : Leg}

/-- What the motors of a chassis with this limit get for a leg: the demands of every planned sample
within the limit, and a stop. -/
def velocities (params : Params Float) (limit : Float) (leg : Leg) : List (Float × Float) :=
  (leg.commands params).map (Command.velocities (Scalar.abs limit))

theorem report?_deeds (params : Params Float) (limit : Float) (legs : List Leg) :
    (legs.flatMap (deeds params limit)).filterMap Event.report? =
      legs.map (report params limit) := by
  rw [List.filterMap_flatMap, List.map_eq_flatMap]
  congr 1
  funext leg
  have hcommand : Event.report? ∘ Event.command = fun _ => none := rfl
  rw [deeds, List.filterMap_append, List.filterMap_map, hcommand, List.filterMap_none]
  rfl

end Leg

/-- The controller of a mission is closed with a stop, and the files stay as they are. -/
theorem Course.finish_ready {c : Course} (h : c.controller.Ready) :
    c.finish.files = c.files ∧ deeds c.finish.events = deeds c.events ++ [.command .stop] := by
  refine ⟨rfl, ?_⟩
  change deeds (c.events ++ c.controller.close.2.map .ofOutput) = _
  rw [deeds_append, Controller.close_ready h]
  rfl

namespace Mission

variable {h : Host} {now : Instant} {s : Session} {params : Params Float} {m : Mission}
  {clock : Nat → Tick}

/-- How a mission ends that is begun: all legs were driven as they were planned, or the engine broke
off on one of them and nobody stops the motors, or one cannot be planned or stored and none was
driven. -/
inductive Ends (clock : Nat → Tick) (s : Session) (params : Params Float) (m : Mission)
    (o : Outcome) : Prop where
  | driven (result : o.result = .ok ()) (planned : ∀ leg ∈ m.legs, leg.Planned params)
      (paced : Leg.Paced clock params m.legs)
      (told : o.commands = m.legs.flatMap (Leg.commands params) ++ [.stop])
      (motors : o.velocities m.chassisLimit =
        m.legs.flatMap (Leg.velocities params m.chassisLimit) ++ [(0.0, 0.0)])
      (reported : o.reports = (opening s).filterMap Event.report? ++
        .settingsLoaded :: .ready ((Leg.entries params m.legs).map (·.1)) ::
          (m.legs.map (Leg.report params m.chassisLimit) ++ [.finished]))
  | stuck (result : o.result = .error .stuck) (planned : ∀ leg ∈ m.legs, leg.Planned params)
      (before : List Leg) (leg : Leg) (after : List Leg) (listed : m.legs = before ++ leg :: after)
      (paced : Leg.Paced clock params before) (round : Nat)
      (broken : leg.brokenRound? clock params (before.flatMap (Leg.commands params)).length =
        some round)
      (told : o.commands =
        before.flatMap (Leg.commands params) ++ (leg.commands params).take (round + 1))
  | unprepared (leg : Leg) (listed : leg ∈ m.legs) (e : Failure)
      (why : Course.Unprepared params m.directory leg e o.files) (result : o.result = .error e)
      (told : o.commands = [.stop])

theorem create_eq (hvalid : params.validate = .ok ()) (chassis : Drivetrain) :
    Controller.create params chassis = .ok (.fresh params params.converter chassis) := by
  rw [Controller.create, Converter.ofParams, hvalid]
  rfl

/-- A sample period that is no span of time ends a run before there is an engine. -/
theorem execute_of_no_period (hsettings : settings h s = .ok (params, m))
    (hvalid : params.validate = .ok ()) (hperiod : params.loopPeriod? = none)
    (clock : Nat → Tick) :
    (execute h s clock).result = .error .period ∧ (execute h s clock).commands = [] := by
  have hlaunch : launch params m = .error .period := by
    rw [launch, create_eq hvalid, hperiod]
  have hexecute : execute h s clock =
      ⟨.error .period, some s, h.files, opening s ++ [.ofReport .settingsLoaded]⟩ := by
    rw [execute, hsettings]
    simp only [hlaunch]
  rw [hexecute]
  exact ⟨rfl, rfl⟩

/-- What a run that drove all legs has told and reported, from all that happened in it. -/
theorem Ends.of_deeds {o : Outcome} (hresult : o.result = .ok ())
    (hplanned : ∀ leg ∈ m.legs, leg.Planned params) (hpaced : Leg.Paced clock params m.legs)
    (hdeeds : deeds o.events = opening s ++ [.ofReport .settingsLoaded] ++
      .ofReport (.ready ((Leg.entries params m.legs).map (·.1))) ::
        (m.legs.flatMap (Leg.deeds params m.chassisLimit) ++ [.ofReport .finished]) ++
      [.command .stop]) : Ends clock s params m o := by
  have htold : o.commands = m.legs.flatMap (Leg.commands params) ++ [.stop] := by
    rw [Outcome.commands, ← filterMap_deeds (fun _ => rfl), hdeeds]
    simp [opening, List.filterMap_cons, Leg.command?_deeds]
  have hreported : o.reports = (opening s).filterMap Event.report? ++
      .settingsLoaded :: .ready ((Leg.entries params m.legs).map (·.1)) ::
        (m.legs.map (Leg.report params m.chassisLimit) ++ [.finished]) := by
    rw [Outcome.reports, ← filterMap_deeds (fun _ => rfl), hdeeds]
    simp [List.filterMap_cons, Leg.report?_deeds]
  refine .driven hresult hplanned hpaced htold ?_ hreported
  rw [Outcome.velocities, htold, List.map_append, List.map_flatMap]
  rfl

/-- The outcome of a mission whose controller was closed, or that is stuck. -/
def outcomeOf (s : Session) : Except Failure Unit × Course → Outcome
  | (.error .stuck, c) => ⟨.error .stuck, some s, c.files, c.events⟩
  | (result, c) => ⟨result, some s, c.finish.files, c.finish.events⟩

theorem outcomeOf_unprepared {c : Course} {leg : Leg} {e : Failure} {files : FileSystem}
    (h : Course.Unprepared params m.directory leg e files) :
    outcomeOf s (.error e, c) = ⟨.error e, some s, c.finish.files, c.finish.events⟩ := by
  cases h <;> rfl

theorem execute_ends (hsettings : settings h s = .ok (params, m))
    (hvalid : params.validate = .ok ())
    (hids : (m.legs.map fun leg => cleanName leg.id.toList).Nodup) {period : Duration}
    (hperiod : params.loopPeriod? = some period) (clock : Nat → Tick) :
    Ends clock s params m (execute h s clock) := by
  let controller := Controller.fresh params params.converter (.ofLimit m.chassisLimit)
  let loaded := opening s ++ [.ofReport .settingsLoaded]
  let begun := [Event.ofNotice .engineStarted, .ofNotice (.initialised params.unit period)]
  let start : Course := ⟨controller, h.files, loaded ++ begun⟩
  have hlaunch : launch params m = .ok (controller, begun) := by
    rw [launch, create_eq hvalid, hperiod]
  have hstart : deeds start.events = loaded := rfl
  have hready : start.controller.Ready := ⟨rfl, rfl, rfl, rfl, rfl, rfl⟩
  have hexecute : execute h s clock = outcomeOf s (Course.run clock start m) := by
    rw [execute, hsettings]
    simp only [hlaunch]
    rfl
  have hruns := Course.runs_run clock hready rfl rfl rfl rfl hids
  rw [hexecute]
  rcases hrun : Course.run clock start m with ⟨result, last⟩
  rw [hrun] at hruns
  cases hruns with
  | driven planned paced ready events =>
    obtain ⟨-, hfinish⟩ := Course.finish_ready ready
    rw [events, hstart] at hfinish
    exact .of_deeds rfl planned paced hfinish
  | stuck planned before leg after listed paced round broken told =>
    exact .stuck rfl planned before leg after listed paced round broken told
  | unprepared leg listed e why ready events =>
    obtain ⟨-, hfinish⟩ := Course.finish_ready ready
    rw [outcomeOf_unprepared why]
    refine .unprepared leg listed e why rfl ?_
    rw [Outcome.commands, ← filterMap_deeds (fun _ => rfl), hfinish, events, hstart]
    rfl

/-- A run is not stuck where the periods of as many samples as a path may have fit between the
latest tick that the clock shows and the end of the clock. -/
theorem Ends.not_stuck {o : Outcome} (h : Ends clock s params m o) {period : Duration}
    (hperiod : params.loopPeriod? = some period) {latest : Nat}
    (hclock : ∀ n, (clock n).nanoseconds ≤ latest)
    (hlimit : latest + Planner.mostSamples * period.nanoseconds < Tick.limit) :
    o.result ≠ .error .stuck := by
  cases h with
  | driven result => simp [result]
  | unprepared leg listed e why result => cases why <;> simp [result]
  | stuck result planned before leg after listed paced round broken =>
    have hnone := (planned leg (by simp [listed])).brokenRound?_eq_none hclock hperiod hlimit
      (before.flatMap (Leg.commands params)).length
    rw [hnone] at broken
    cases broken

/-- With a period as long as the clock goes, no leg is driven to its end. -/
theorem Ends.short_of_long {o : Outcome} (h : Ends clock s params m o) {period : Duration}
    (hperiod : params.loopPeriod? = some period) (hlong : Tick.limit ≤ period.nanoseconds)
    (hok : o.result = .ok ()) : ∀ leg ∈ m.legs, leg.waypoints.length < 2 := by
  cases h with
  | unprepared leg listed e why result => simp [result] at hok
  | stuck result => simp [result] at hok
  | driven result planned paced =>
    intro leg hl
    by_contra hmany
    obtain ⟨before, after, hlegs⟩ := List.append_of_mem hl
    have hbroken := (planned leg hl).brokenRound?_of_long (Nat.le_of_not_lt hmany) hperiod hlong
      clock (before.flatMap (Leg.commands params)).length
    rw [paced before leg after hlegs] at hbroken
    cases hbroken

theorem run_eq_execute {begun : Host} {files : FileSystem}
    (hbegin : Session.begin h sessions program now = (.ok s, begun))
    (hopen : s.openLog (some detail) begun.files = .ok files) (clock : Nat → Tick) :
    run h now clock = execute { begun with files } s clock := by
  rw [run, hbegin]
  simp only [hopen]

/-- A run whose settings hold, with ids that differ as names of files, drives every leg as it is
planned, or ends at one that cannot be planned or stored before any is driven, or is stuck on one on
which the engine breaks off for want of an instant to sleep to. With so short a period that the
clock does not end it is not stuck; with one as long as the clock goes it drives no leg to its end.
Where the period is no span of time, the run ends at once and nothing is told at all. -/
theorem run_drives_its_legs {begun : Host} {files : FileSystem}
    (hbegin : Session.begin h sessions program now = (.ok s, begun))
    (hopen : s.openLog (some detail) begun.files = .ok files)
    (hsettings : settings { begun with files } s = .ok (params, m))
    (hvalid : params.validate = .ok ())
    (hids : (m.legs.map fun leg => cleanName leg.id.toList).Nodup) (clock : Nat → Tick) :
    let outcome := run h now clock
    (∀ period, params.loopPeriod? = some period →
      Ends clock s params m outcome ∧
      (∀ latest, (∀ n, (clock n).nanoseconds ≤ latest) →
        latest + Planner.mostSamples * period.nanoseconds < Tick.limit →
          outcome.result ≠ .error .stuck) ∧
      (Tick.limit ≤ period.nanoseconds → outcome.result = .ok () →
        ∀ leg ∈ m.legs, leg.waypoints.length < 2)) ∧
    (params.loopPeriod? = none → outcome.result = .error .period ∧ outcome.commands = []) := by
  intro outcome
  have houtcome : outcome = execute { begun with files } s clock :=
    run_eq_execute hbegin hopen clock
  rw [houtcome]
  refine ⟨fun period hperiod => ?_, fun hperiod =>
    execute_of_no_period hsettings hvalid hperiod clock⟩
  have hends := execute_ends hsettings hvalid hids hperiod clock
  exact ⟨hends, fun latest hclock hlimit => hends.not_stuck hperiod hclock hlimit,
    hends.short_of_long hperiod⟩

def softwareNodes (controller mission : String) : List (List String × Node) :=
  [(["sw"], .directory), (["sw", "params"], .directory),
    (["sw", "params", "mp_ctrl.toml"], .file controller.toUTF8.data.toList),
    (["sw", "params", "drive_exec.toml"], .file mission.toUTF8.data.toList),
    (["sw", "sessions"], .directory)]

def softwareHost (controller mission : String) : Host :=
  ⟨some "sw", { nodes := softwareNodes controller mission }⟩

def firstSession : Session := .located "sw" sessions program ⟨0⟩

def begunFiles (controller mission : String) : FileSystem :=
  { nodes := softwareNodes controller mission ++
      [(["sw", "sessions", "drive_exec_19700101_000000"], .directory)] }

def loggedFiles (controller mission : String) : FileSystem :=
  { nodes := softwareNodes controller mission ++
      [(["sw", "sessions", "drive_exec_19700101_000000"], .directory),
        (["sw", "sessions", "drive_exec_19700101_000000", "drive_exec.log"], .file [])] }

section Texts

variable (controller mission : String)

theorem softwareRoot_eq {h : Host} {nodes : List (List String × Node)}
    (hsetting : h.rootSetting = some "sw")
    (hfiles : h.files = { nodes := (["sw"], .directory) :: nodes }) :
    h.softwareRoot = .ok "sw" := by
  have hcheck : check "sw" = .ok () := by cbv
  have hroot : h.files.isDirectory "sw" = true := by
    rw [hfiles, isDirectory, find, locate, hcheck]
    rfl
  simp only [Host.softwareRoot, hsetting, hroot, if_true]

theorem begin_software :
    Session.begin (softwareHost controller mission) sessions program ⟨0⟩ = (.ok firstSession,
      { softwareHost controller mission with files := begunFiles controller mission }) := by
  have hroot : (softwareHost controller mission).softwareRoot = .ok "sw" := softwareRoot_eq rfl rfl
  have hcheck : check "sw/sessions/drive_exec_19700101_000000" = .ok () := by cbv
  have hmade : (softwareHost controller mission).files.makeDirectories firstSession.root =
      (.ok (), begunFiles controller mission) := by
    rw [show firstSession.root = "sw/sessions/drive_exec_19700101_000000" from rfl,
      makeDirectories, makeChain, makeDirectory, locate, hcheck]
    rfl
  simp only [Session.begin, hroot]
  rw [show Session.located "sw" sessions program ⟨0⟩ = firstSession from rfl, hmade]

theorem openLog_software : firstSession.openLog (some detail) (begunFiles controller mission) =
    .ok (loggedFiles controller mission) := by
  have hcheck : check "sw/sessions/drive_exec_19700101_000000/drive_exec.log" = .ok () := by cbv
  rw [Session.openLog, if_pos (by decide), create, locate,
    show firstSession.logFile = "sw/sessions/drive_exec_19700101_000000/drive_exec.log" from rfl,
    hcheck]
  rfl

theorem fromUTF8?_toUTF8 (text : String) :
    String.fromUTF8? ⟨text.toUTF8.data.toList.toArray⟩ = some text := by
  unfold String.fromUTF8?
  rw [dif_pos]
  rfl

theorem settings_software {read : Params Float} (hread : Params.parse? controller = some read)
    (hm : parse? mission = some m) :
    settings { softwareHost controller mission with files := loggedFiles controller mission }
      firstSession = .ok ({ read with storageRoot := join firstSession.root "usd" }, m) := by
  have hroot : ({ softwareHost controller mission with
      files := loggedFiles controller mission } : Host).softwareRoot = .ok "sw" :=
    softwareRoot_eq rfl rfl
  have hcheck : check "sw/params/mp_ctrl.toml" = .ok () := by cbv
  have hcheck' : check "sw/params/drive_exec.toml" = .ok () := by cbv
  have hbytes : (loggedFiles controller mission).read
      (join (join "sw" Host.settingsDirectory) controllerFile) =
        .ok controller.toUTF8.data.toList := by
    rw [show join (join "sw" Host.settingsDirectory) controllerFile = "sw/params/mp_ctrl.toml" from
      rfl, FileSystem.read, find, locate, hcheck]
    rfl
  have hbytes' : (loggedFiles controller mission).read
      (join (join "sw" Host.settingsDirectory) missionFile) = .ok mission.toUTF8.data.toList := by
    rw [show join (join "sw" Host.settingsDirectory) missionFile = "sw/params/drive_exec.toml" from
      rfl, FileSystem.read, find, locate, hcheck']
    rfl
  simp only [settings, Host.load, hroot, Host.textOf, hbytes, hbytes', fromUTF8?_toUTF8, hread, hm]

end Texts

deriving instance DecidableEq for Params
deriving instance DecidableEq for Leg
deriving instance DecidableEq for Mission

def controllerText (period : String) : String :=
  "sample_period_s = " ++ period ++ "\n[limits]\nmax_vel_ms = 1.0\nmax_accel_mss = 1.0\n" ++
    "max_jerk_msss = 1.0\n[scales]\nwheel_diameter_m = 1.0\nwheel_track_m = 1.0\n"

def sampledEvery (period : Float) : Params Float :=
  { Params.ofGeometry ⟨1.0, 1.0, 1.0⟩ ⟨1.0, 1.0⟩ 1.0 with samplePeriod := period }

def sessionParams (period : Float) : Params Float :=
  { sampledEvery period with storageRoot := join firstSession.root "usd" }

/-- A mission of two legs with fewer than two waypoints. -/
def standingText : String :=
  "path_dir = \"\"\nchassis_max_velocity = 1.0\n[[paths]]\nid = \"A\"\nwaypoints = []\n" ++
    "[[paths]]\nid = \"B\"\n[[paths.waypoints]]\nposition_m = [0.0, 0.0]\nheading_rad = 0.0\n"

def standing : Mission := ⟨"", 1.0, [⟨"A", [], .forward⟩, ⟨"B", [⟨0.0, 0.0, 0.0⟩], .forward⟩]⟩

theorem parse?_standingText : parse? standingText = some standing := by decide +kernel

theorem nodup_standing :
    (standing.legs.map fun leg => cleanName leg.id.toList).Nodup := by decide +kernel

/-- A mission of a leg straight ahead for a metre, and one with fewer than two waypoints. -/
def aheadText : String :=
  "path_dir = \"\"\nchassis_max_velocity = 1.0\n[[paths]]\nid = \"A\"\n" ++
    "[[paths.waypoints]]\nposition_m = [0.0, 0.0]\nheading_rad = 0.0\n" ++
    "[[paths.waypoints]]\nposition_m = [1.0, 0.0]\nheading_rad = 0.0\n" ++
    "[[paths]]\nid = \"B\"\nwaypoints = []\n"

def ahead : Mission :=
  ⟨"", 1.0, [⟨"A", [⟨0.0, 0.0, 0.0⟩, ⟨1.0, 0.0, 0.0⟩], .forward⟩, ⟨"B", [], .forward⟩]⟩

theorem parse?_aheadText : parse? aheadText = some ahead := by decide +kernel

theorem nodup_ahead : (ahead.legs.map fun leg => cleanName leg.id.toList).Nodup := by
  decide +kernel

/-- At a hundred samples a second the leg straight ahead is driven, unless it cannot be planned or
stored, and the mission is not stuck on it. -/
theorem ahead_at_short_period :
    let text := controllerText "0.01"
    let host := softwareHost text aheadText
    let params := sessionParams 0.01
    Session.begin host sessions program ⟨0⟩ =
        (.ok firstSession, { host with files := begunFiles text aheadText }) ∧
      firstSession.openLog (some detail) (begunFiles text aheadText) =
        .ok (loggedFiles text aheadText) ∧
      settings { host with files := loggedFiles text aheadText } firstSession =
        .ok (params, ahead) ∧
      params.validate = .ok () ∧
      (ahead.legs.map fun leg => cleanName leg.id.toList).Nodup ∧
      params.loopPeriod? = some ⟨10000000⟩ ∧
      Ends stillClock firstSession params ahead (run host ⟨0⟩) ∧
      (run host ⟨0⟩).result ≠ .error .stuck := by
  intro text host params
  have hbegin := begin_software text aheadText
  have hopen := openLog_software text aheadText
  have hparse : Params.parse? text = some (sampledEvery 0.01) := by decide +kernel
  have hsettings := settings_software text aheadText hparse parse?_aheadText
  have hvalid : (sessionParams 0.01).validate = .ok () := by rfl
  have hperiod : (sessionParams 0.01).loopPeriod? = some ⟨10000000⟩ := by decide +kernel
  have hshort : 0 + Planner.mostSamples * 10000000 < Tick.limit := by decide
  obtain ⟨hends, hmoving, -⟩ :=
    (run_drives_its_legs hbegin hopen hsettings hvalid nodup_ahead stillClock).1 _ hperiod
  exact ⟨hbegin, hopen, hsettings, hvalid, nodup_ahead, hperiod, hends,
    hmoving 0 (fun _ => Nat.le_refl 0) hshort⟩

/-- With a sample period of `1e20` seconds, which gets past the checks, a mission breaks off although
all its legs can be planned, and the chassis is not told to stop. -/
theorem standing_at_long_period :
    let text := controllerText "1e20"
    let host := softwareHost text standingText
    Session.begin host sessions program ⟨0⟩ =
        (.ok firstSession, { host with files := begunFiles text standingText }) ∧
      firstSession.openLog (some detail) (begunFiles text standingText) =
        .ok (loggedFiles text standingText) ∧
      settings { host with files := loggedFiles text standingText } firstSession =
        .ok (sessionParams 1e20, standing) ∧
      (sessionParams 1e20).validate = .ok () ∧
      (standing.legs.map fun leg => cleanName leg.id.toList).Nodup ∧
      (∀ leg ∈ standing.legs, leg.Planned (sessionParams 1e20)) ∧
      (run host ⟨0⟩).result = .error .period ∧ (run host ⟨0⟩).commands = [] := by
  intro text host
  have hbegin := begin_software text standingText
  have hopen := openLog_software text standingText
  have hparse : Params.parse? text = some (sampledEvery 1e20) := by decide +kernel
  have hsettings := settings_software text standingText hparse parse?_standingText
  have hvalid : (sessionParams 1e20).validate = .ok () := by rfl
  have hperiod : (sessionParams 1e20).loopPeriod? = none := by decide +kernel
  have hplanned : ∀ leg ∈ standing.legs, leg.Planned (sessionParams 1e20) := by
    intro leg hl
    simp only [standing, List.mem_cons, List.not_mem_nil, or_false] at hl
    rcases hl with rfl | rfl
    · exact .empty (by decide) (by rfl) (by rfl)
    · exact .empty (by decide) (by rfl) (by rfl)
  have hends := execute_of_no_period hsettings hvalid hperiod stillClock
  rw [← run_eq_execute hbegin hopen] at hends
  exact ⟨hbegin, hopen, hsettings, hvalid, nodup_standing, hplanned, hends.1, hends.2⟩

end Mission

end SkidSteer
