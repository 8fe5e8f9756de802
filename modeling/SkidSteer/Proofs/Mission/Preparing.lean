import SkidSteer.Mission
import SkidSteer.Proofs.Planning.SampleCount
import SkidSteer.Proofs.Storage.Separate

namespace SkidSteer

open Storage FileSystem

def Params.planner (params : Params Float) : Planner Float :=
  ⟨params.geometry.wheelTrack, params.samplePeriod⟩

namespace Leg

variable {params : Params Float} {leg : Leg} {legs : List Leg}

def plan (params : Params Float) (leg : Leg) : Except (PlanError Float) (Plan Float) :=
  params.planner.plan leg.waypoints params.limits

/-- The trajectory of a leg that can be planned and has waypoints enough. -/
def trajectory? (params : Params Float) (leg : Leg) : Option (Trajectory Float) :=
  match leg.plan params with
  | .ok (.path _ _ trajectory) => some trajectory
  | _ => none

def path? (params : Params Float) (leg : Leg) : Option Path :=
  (leg.trajectory? params).map (Trajectory.map Binary64.ofFloat)

def entries (params : Params Float) (legs : List Leg) : List (String × Path) :=
  legs.filterMap fun leg => (leg.path? params).map fun path => (leg.id, path)

theorem path?_of_plan {plan : Plan Float} (h : leg.plan params = .ok plan) :
    plan = .empty ∧ leg.path? params = none ∨
      ∃ path, leg.path? params = some path ∧ plan.trajectory.map Binary64.ofFloat = path ∧
        2 ≤ leg.waypoints.length ∧ path.isEmpty = false ∧ path.size < countLimit := by
  rcases Planner.plan_cases h with ⟨-, rfl⟩ | ⟨hmany, length, t, rfl, hone, hmost⟩
  · exact Or.inl ⟨rfl, by rw [path?, trajectory?, h]; rfl⟩
  · refine Or.inr ⟨t.map Binary64.ofFloat, by rw [path?, trajectory?, h]; rfl, rfl, hmany, ?_, ?_⟩
    · rw [Trajectory.isEmpty, Array.isEmpty_eq_false_iff, ← Array.size_pos_iff]
      exact Nat.lt_of_lt_of_eq hone (Trajectory.size_map ..).symm
    · rw [Trajectory.size_map]
      exact Nat.lt_of_le_of_lt hmost (by decide)

theorem entries_append (legs later : List Leg) :
    entries params (legs ++ later) = entries params legs ++ entries params later :=
  List.filterMap_append

theorem entries_of_path?_eq_none (h : leg.path? params = none) : entries params [leg] = [] := by
  simp [entries, h]

theorem entries_of_path? {path : Path} (h : leg.path? params = some path) :
    entries params [leg] = [(leg.id, path)] := by
  simp [entries, h]

theorem lookup_entries_of_not_mem {id : String} (h : id ∉ legs.map Leg.id) :
    (entries params legs).lookup id = none := by
  rw [List.lookup_eq_none_iff]
  intro entry he
  obtain ⟨leg, hm, hpath⟩ := List.mem_filterMap.1 he
  obtain ⟨path, -, rfl⟩ := Option.map_eq_some_iff.1 hpath
  rw [bne_iff_ne]
  rintro rfl
  exact h (List.mem_map_of_mem hm)

/-- Under ids that differ each leg has its own path. -/
theorem lookup_entries (hids : (legs.map Leg.id).Nodup) (hm : leg ∈ legs) :
    (entries params legs).lookup leg.id = leg.path? params := by
  obtain ⟨before, after, rfl⟩ := List.append_of_mem hm
  rw [List.map_append, List.map_cons, List.nodup_append, List.nodup_cons] at hids
  obtain ⟨-, ⟨hafter, -⟩, hbefore⟩ := hids
  have hnone : leg.id ∉ before.map Leg.id := fun h => hbefore _ h _ (List.mem_cons_self ..) rfl
  rw [← List.singleton_append, entries_append, entries_append, List.lookup_append,
    lookup_entries_of_not_mem hnone, Option.none_or, List.lookup_append,
    lookup_entries_of_not_mem hafter, Option.or_none]
  cases hp : leg.path? params with
  | none => rw [entries_of_path?_eq_none hp, List.lookup_nil]
  | some path => rw [entries_of_path? hp, List.lookup_cons_self]

end Leg

def Event.isDeed : Event → Bool
  | .entry (.notice _) => false
  | _ => true

/-- What is reported, and what the chassis is told. -/
def deeds (events : List Event) : List Event := events.filter Event.isDeed

@[simp] theorem deeds_append (events later : List Event) :
    deeds (events ++ later) = deeds events ++ deeds later :=
  List.filter_append ..

@[simp] theorem deeds_notices (notices : List Notice) : deeds (notices.map .ofNotice) = [] := by
  rw [deeds, List.filter_eq_nil_iff]
  intro event he
  obtain ⟨notice, -, rfl⟩ := List.mem_map.1 he
  exact Bool.false_ne_true

theorem Storing.openFile_cases (fs : FileSystem) (location : String) (next : Storing) :
    (∃ after, openFile fs location next = (after, next, [])) ∨
      ∃ after kind notices, fs.createWithin location = (.error kind, after) ∧
        openFile fs location next =
          (after, .done (.error (.openFailed location kind.error)), notices) := by
  rcases hc : fs.createWithin location with ⟨result, after⟩
  cases result with
  | ok => exact Or.inl ⟨after, by rw [openFile, hc]⟩
  | error kind => exact Or.inr ⟨after, kind, _, rfl, by rw [openFile, hc]⟩

namespace Controller

variable {c : Controller} {fs : FileSystem} {directory id : String} {path : Path}

/-- A controller that knows these paths and is otherwise as it was. -/
def knowing (c : Controller) (entries : List (String × Path)) : Controller :=
  { c with shared := { c.shared with registry := ⟨entries⟩ } }

@[simp] theorem path?_knowing (entries : List (String × Path)) (id : String) :
    (c.knowing entries).path? id = entries.lookup id := rfl

theorem register_knowing {entries : List (String × Path)} (hnew : entries.lookup id = none)
    (hsome : path.isEmpty = false) :
    (c.knowing entries).serve (.register id path) = c.knowing (entries ++ [(id, path)]) := by
  simp only [serve, Shared.serve, knowing, Registry.insert, hsome, Bool.false_eq_true, if_false,
    Registry.put_of_lookup_eq_none hnew]

theorem register_empty (h : path.isEmpty = true) : c.serve (.register id path) = c := by
  simp only [serve, Shared.serve, Registry.insert, h, if_true]

/-- Storing ends where the left file cannot be opened. -/
theorem store_of_left_not_opened (hk : c.shared.registry.contains id = true) {e : StoreError}
    {after : FileSystem} {notices : List Notice}
    (h : Storing.openFile fs (fileOf c.params.storageRoot directory id .left) .createRight =
      (after, .done (.error e), notices)) :
    c.store fs directory id = (.error (.ofStore e), after, notices) := by
  simp [store, Storing.longest, Storing.run, Storing.step, files, files_eq, hk, h]

/-- Storing ends where the right file cannot be opened. -/
theorem store_of_right_not_opened (hk : c.shared.registry.contains id = true) {e : StoreError}
    {between after : FileSystem} {notices : List Notice}
    (hleft : Storing.openFile fs (fileOf c.params.storageRoot directory id .left) .createRight =
      (between, .createRight, []))
    (hright : Storing.openFile between (fileOf c.params.storageRoot directory id .right)
      .lookUpAgain = (after, .done (.error e), notices)) :
    c.store fs directory id = (.error (.ofStore e), after, notices) := by
  simp [store, Storing.longest, Storing.run, Storing.step, files, files_eq, hk, hleft, hright]

/-- A path with few enough samples is stored, unless one of its files cannot be opened. -/
theorem store_cases (fs : FileSystem) (directory : String) (hp : c.path? id = some path)
    (hfew : path.size < countLimit) :
    ∃ result after notices, c.store fs directory id = (result, after, notices) ∧
      (result = .ok () ∨
        ∃ (side : Side) (before : FileSystem) (kind : IoKind),
          before.createWithin (fileOf c.params.storageRoot directory id side) =
            (.error kind, after) ∧
          result = .error (.storage
            (.openFailed (fileOf c.params.storageRoot directory id side) kind.error))) := by
  have hk : c.shared.registry.contains id = true := by
    rw [Registry.contains, show c.shared.registry.get? id = some path from hp]
    rfl
  have hleft := Storing.openFile_cases fs (fileOf c.params.storageRoot directory id .left)
    .createRight
  rcases hleft with ⟨fs₁, hleft⟩ | ⟨fs₁, kind, notices₁, hfault, hleft⟩
  · have hright := Storing.openFile_cases fs₁ (fileOf c.params.storageRoot directory id .right)
      .lookUpAgain
    rcases hright with ⟨fs₂, hright⟩ | ⟨fs₂, kind, notices₂, hfault, hright⟩
    · exact ⟨_, _, _, store_of_opened hp hfew hleft hright, Or.inl rfl⟩
    · exact ⟨_, _, _, store_of_right_not_opened hk hleft hright,
        Or.inr ⟨.right, fs₁, kind, hfault, rfl⟩⟩
  · exact ⟨_, _, _, store_of_left_not_opened hk hleft, Or.inr ⟨.left, fs, kind, hfault, rfl⟩⟩

theorem store_unknown (fs : FileSystem) (directory : String) (hp : c.path? id = none) :
    c.store fs directory id = (.ok (), fs, [.nothingToStore id]) := by
  have hk : c.shared.registry.contains id = false := by
    rw [Registry.contains, show c.shared.registry.get? id = none from hp]
    rfl
  simp [store, Storing.longest, Storing.run, Storing.step, hk]

/-- The files of another path keep what they hold. -/
theorem store_keeps {directory' id' : String} {result : Except ControlError Unit}
    {after : FileSystem} {notices : List Notice}
    (hs : c.store fs directory' id' = (result, after, notices))
    (hne : cleanName id.toList ≠ cleanName id'.toList) {side : Side} {bytes : List UInt8}
    (h : fs.Holds (fileOf c.params.storageRoot directory id side) bytes) :
    after.Holds (fileOf c.params.storageRoot directory id side) bytes := by
  have hafter : (Storing.run (c.files directory' id') id' (.unlimited, .unlimited)
      c.shared.registry Storing.longest fs .lookUp).1 = after := by
    rw [← show (c.store fs directory' id').2.1 = after by rw [hs], store]
    split
    · rename_i he
      rw [he]
    · rename_i he
      rw [he]
  have hspares := Storing.run_spares (.unlimited, .unlimited) c.shared.registry Storing.longest
    (show Storing.Opened c.params.storageRoot directory' id' fs .lookUp from trivial)
  rw [show (PathFiles.of c.params.storageRoot directory' id') = c.files directory' id' from rfl,
    hafter] at hspares
  have hapart := apart_of_cleanName_ne hne after c.params.storageRoot directory directory'
  obtain ⟨kept, hkept, hsame⟩ := hspares.holds h
  rwa [← hsame fun place hl => hapart.not_touches hl]

end Controller

namespace Course

variable {start c : Course} {directory : String} {legs : List Leg} {leg : Leg}

theorem deeds_add_notices (c : Course) (notices : List Notice) :
    deeds (c.add (notices.map .ofNotice)).events = deeds c.events := by
  simp [add]

/-- Only paths were registered since the start, and nothing happened but notices. -/
structure Registering (start c : Course) : Prop where
  controller : ∃ entries, c.controller = start.controller.knowing entries
  quiet : deeds c.events = deeds start.events

/-- Some legs were planned and stored: the controller knows their paths alone, and the files hold
them. -/
structure Prepared (start : Course) (directory : String) (legs : List Leg) (c : Course) : Prop where
  controller : c.controller =
    start.controller.knowing (Leg.entries start.controller.params legs)
  held : ∀ leg ∈ legs, ∀ path, leg.path? start.controller.params = some path → ∀ side,
    c.files.Holds (fileOf start.controller.params.storageRoot directory leg.id side)
      (encoding (path.side side))
  planned : ∀ leg ∈ legs, ∃ plan, leg.plan start.controller.params = .ok plan
  quiet : deeds c.events = deeds start.events

/-- Why a mission ends while it is prepared: a leg that cannot be planned, or a file of a leg that
cannot be opened, which leaves these files. -/
inductive Unprepared (params : Params Float) (directory : String) (leg : Leg) :
    Failure → FileSystem → Prop where
  | notPlanned (e : PlanError Float) (fault : leg.plan params = .error e) (files : FileSystem) :
      Unprepared params directory leg (.planning leg.id (.notPlanned e)) files
  | notOpened (many : 2 ≤ leg.waypoints.length) (side : Side) (before files : FileSystem)
      (kind : IoKind)
      (fault : before.createWithin (fileOf params.storageRoot directory leg.id side) =
        (.error kind, files)) :
      Unprepared params directory leg (.storing leg.id (.storage
        (.openFailed (fileOf params.storageRoot directory leg.id side) kind.error))) files

theorem Prepared.registering (h : Prepared start directory legs c) : Registering start c :=
  ⟨⟨_, h.controller⟩, h.quiet⟩

theorem Prepared.planner (h : Prepared start directory legs c) (leg : Leg) :
    c.controller.planner.plan leg.waypoints c.controller.params.limits =
      leg.plan start.controller.params := by
  rw [h.controller]
  rfl

/-- What is planned for a leg is registered, if it is a path. -/
theorem Prepared.register (h : Prepared start directory legs c) (hnew : leg.id ∉ legs.map Leg.id)
    {plan : Plan Float} (hplan : leg.plan start.controller.params = .ok plan) :
    c.controller.serve (.register leg.id (plan.trajectory.map Binary64.ofFloat)) =
      start.controller.knowing (Leg.entries start.controller.params (legs ++ [leg])) := by
  rw [h.controller, Leg.entries_append]
  rcases Leg.path?_of_plan hplan with ⟨rfl, hnone⟩ | ⟨path, hpath, rfl, -, hsome, -⟩
  · rw [Leg.entries_of_path?_eq_none hnone, List.append_nil]
    exact Controller.register_empty (by simp [Plan.trajectory, Trajectory.map, Trajectory.empty,
      Trajectory.isEmpty])
  · rw [Leg.entries_of_path? hpath,
      Controller.register_knowing (Leg.lookup_entries_of_not_mem hnew) hsome]

/-- A leg was planned after some that are prepared: what is planned for it is registered too. -/
structure Registered (start : Course) (directory : String) (legs : List Leg) (leg : Leg)
    (c : Course) : Prop where
  controller : c.controller =
    start.controller.knowing (Leg.entries start.controller.params (legs ++ [leg]))
  held : ∀ other ∈ legs, ∀ path, other.path? start.controller.params = some path → ∀ side,
    c.files.Holds (fileOf start.controller.params.storageRoot directory other.id side)
      (encoding (path.side side))
  planned : ∀ other ∈ legs ++ [leg], ∃ plan, other.plan start.controller.params = .ok plan
  quiet : deeds c.events = deeds start.events

theorem Prepared.plan (h : Prepared start directory legs c) (hnew : leg.id ∉ legs.map Leg.id)
    {plan : Plan Float} (hplan : leg.plan start.controller.params = .ok plan) :
    ∃ after, c.plan leg = (.ok (), after) ∧ Registered start directory legs leg after := by
  have hgenerate : ∃ notices,
      c.controller.generate leg.waypoints leg.id c.controller.params.limits =
        (.ok (), start.controller.knowing
          (Leg.entries start.controller.params (legs ++ [leg])), notices) := by
    rw [Controller.generate, h.planner, hplan, ← h.register hnew hplan]
    exact ⟨_, rfl⟩
  obtain ⟨notices, hgenerate⟩ := hgenerate
  rw [Course.plan, hgenerate]
  refine ⟨_, rfl, rfl, h.held, ?_, (deeds_add_notices _ notices).trans h.quiet⟩
  intro other ho
  rcases List.mem_append.1 ho with ho | ho
  · exact h.planned other ho
  · rw [List.mem_singleton.1 ho]
    exact ⟨plan, hplan⟩

theorem Prepared.not_planned (h : Prepared start directory legs c) {e : PlanError Float}
    (hfault : leg.plan start.controller.params = .error e) :
    ∃ after, c.plan leg = (.error (.notPlanned e), after) ∧ Registering start after := by
  have hfails : c.plan leg = (.error (.notPlanned e),
      c.add ([Notice.notGenerated leg.id e].map .ofNotice)) := by
    rw [Course.plan, Controller.generate, h.planner, hfault]
  exact ⟨_, hfails, ⟨_, h.controller⟩, (deeds_add_notices _ _).trans h.quiet⟩

/-- Storing touches the files, and is otherwise quiet. -/
theorem store_eq {result : Except ControlError Unit} {files : FileSystem} {notices : List Notice}
    (h : c.controller.store c.files directory leg.id = (result, files, notices)) :
    ∃ after, c.store directory leg = (result, after) ∧ after.files = files ∧
      after.controller = c.controller ∧ deeds after.events = deeds c.events := by
  rw [Course.store, h]
  exact ⟨_, rfl, rfl, rfl, deeds_add_notices _ notices⟩

namespace Registered

variable {path : Path}

theorem path? (h : Registered start directory legs leg c) (hid : leg.id ∉ legs.map Leg.id) :
    c.controller.path? leg.id = leg.path? start.controller.params := by
  rw [h.controller, Controller.path?_knowing, Leg.entries_append, List.lookup_append,
    Leg.lookup_entries_of_not_mem hid, Option.none_or]
  exact Leg.lookup_entries (List.nodup_singleton _) (List.mem_singleton_self _)

theorem store_nothing (h : Registered start directory legs leg c)
    (hid : leg.id ∉ legs.map Leg.id) (hnone : leg.path? start.controller.params = none) :
    ∃ after, c.store directory leg = (.ok (), after) ∧
      Prepared start directory (legs ++ [leg]) after := by
  have hfind : c.controller.path? leg.id = none := (h.path? hid).trans hnone
  obtain ⟨after, hstored, hsame, hkept, hsilent⟩ :=
    store_eq (Controller.store_unknown c.files directory hfind)
  refine ⟨after, hstored, hkept.trans h.controller, ?_, h.planned, hsilent.trans h.quiet⟩
  intro other ho path hother side
  rcases List.mem_append.1 ho with ho | ho
  · rw [hsame]
    exact h.held other ho path hother side
  · rw [List.mem_singleton.1 ho, hnone] at hother
    cases hother

/-- The path of a leg is stored beside those of the others, or a file of it cannot be opened. -/
theorem store_path (h : Registered start directory legs leg c)
    (hid : leg.id ∉ legs.map Leg.id)
    (hnew : ∀ other ∈ legs, cleanName other.id.toList ≠ cleanName leg.id.toList)
    (hpath : leg.path? start.controller.params = some path) (hmany : 2 ≤ leg.waypoints.length)
    (hfew : path.size < countLimit) :
    (∃ after, c.store directory leg = (.ok (), after) ∧
        Prepared start directory (legs ++ [leg]) after) ∨
      ∃ e after, c.store directory leg = (.error e, after) ∧
        Unprepared start.controller.params directory leg (.storing leg.id e) after.files ∧
        Registering start after := by
  have hfind : c.controller.path? leg.id = some path := (h.path? hid).trans hpath
  have hroot : c.controller.params = start.controller.params := by
    rw [h.controller]
    rfl
  obtain ⟨result, files, notices, hs, hresult⟩ :=
    Controller.store_cases c.files directory hfind hfew
  obtain ⟨after, hstored, hsame, hkept, hsilent⟩ := store_eq hs
  rcases hresult with rfl | ⟨side, before, kind, hfault, rfl⟩
  · left
    obtain ⟨-, hholds⟩ := Controller.store_holds hfind hs
    refine ⟨after, hstored, hkept.trans h.controller, ?_, h.planned, hsilent.trans h.quiet⟩
    intro other ho kept hother side
    rw [hsame, ← hroot]
    rcases List.mem_append.1 ho with ho | ho
    · apply Controller.store_keeps hs (hnew other ho)
      rw [hroot]
      exact h.held other ho kept hother side
    · rw [List.mem_singleton.1 ho, hpath, Option.some.injEq] at hother
      rw [List.mem_singleton.1 ho, ← hother]
      exact hholds side
  · right
    rw [hroot] at hfault hstored
    rw [← hsame] at hfault
    exact ⟨_, after, hstored, .notOpened hmany side before after.files kind hfault,
      ⟨_, hkept.trans h.controller⟩, hsilent.trans h.quiet⟩

end Registered

/-- A leg is prepared, or the mission ends with it. -/
theorem prepare_cases (h : Prepared start directory legs c)
    (hnew : ∀ other ∈ legs, cleanName other.id.toList ≠ cleanName leg.id.toList) :
    (∃ after, prepare directory c leg = (.ok (), after) ∧
        Prepared start directory (legs ++ [leg]) after) ∨
      ∃ e after, prepare directory c leg = (.error e, after) ∧
        Unprepared start.controller.params directory leg e after.files ∧
        Registering start after := by
  have hid : leg.id ∉ legs.map Leg.id := by
    intro hm
    obtain ⟨other, ho, he⟩ := List.mem_map.1 hm
    exact hnew other ho (by rw [he])
  cases hplan : leg.plan start.controller.params with
  | error e =>
    obtain ⟨after, hfails, hafter⟩ := h.not_planned hplan
    refine Or.inr ⟨_, after, ?_, .notPlanned e hplan _, hafter⟩
    rw [prepare, hfails]
  | ok plan =>
    obtain ⟨between, hplanned, hbetween⟩ := h.plan hid hplan
    rcases Leg.path?_of_plan hplan with ⟨-, hnone⟩ | ⟨path, hpath, -, hmany, -, hfew⟩
    · obtain ⟨after, hstored, hafter⟩ := hbetween.store_nothing hid hnone
      refine Or.inl ⟨after, ?_, hafter⟩
      simp only [prepare, hplanned, hstored]
    · rcases hbetween.store_path hid hnew hpath hmany hfew with
        ⟨after, hstored, hafter⟩ | ⟨e, after, hstored, hwhy, hafter⟩
      · refine Or.inl ⟨after, ?_, hafter⟩
        simp only [prepare, hplanned, hstored]
      · refine Or.inr ⟨_, after, ?_, hwhy, hafter⟩
        simp only [prepare, hplanned, hstored]

/-- A step that keeps what holds is taken for all, or the first that fails ends them. -/
theorem each_cases {β : Type} {step : Course → β → Except Failure Unit × Course} {all : List β}
    (Holds : List β → Course → Prop) (Fails : List β → β → Failure → Course → Prop) {c : Course}
    (keep : ∀ before b after c, all = before ++ b :: after → Holds before c →
      (∃ next, step c b = (.ok (), next) ∧ Holds (before ++ [b]) next) ∨
        ∃ e next, step c b = (.error e, next) ∧ Fails before b e next)
    (start : Holds [] c) :
    (∃ last, each step all c = (.ok (), last) ∧ Holds all last) ∨
      ∃ before b after, all = before ++ b :: after ∧
        ∃ e last, each step all c = (.error e, last) ∧ Fails before b e last := by
  suffices ∀ before rest c, all = before ++ rest → Holds before c →
      (∃ last, each step rest c = (.ok (), last) ∧ Holds all last) ∨
        ∃ before b after, all = before ++ b :: after ∧
          ∃ e last, each step rest c = (.error e, last) ∧ Fails before b e last from
    this [] all c rfl start
  intro before rest
  induction rest generalizing before with
  | nil =>
    intro c hall hc
    rw [List.append_nil] at hall
    exact Or.inl ⟨c, rfl, hall ▸ hc⟩
  | cons b rest ih =>
    intro c hall hc
    rcases keep before b rest c hall hc with ⟨next, hnext, hholds⟩ | ⟨e, next, hnext, hfails⟩
    · simp only [each, hnext]
      exact ih (before ++ [b]) next (by rw [hall, List.append_assoc, List.singleton_append]) hholds
    · simp only [each, hnext]
      exact Or.inr ⟨before, b, rest, hall, e, next, rfl, hfails⟩

/-- All legs are prepared, or the mission ends with one of them. -/
theorem prepare_all (start : Course) (directory : String)
    (hempty : start.controller = start.controller.knowing [])
    (hids : (legs.map fun leg => cleanName leg.id.toList).Nodup) :
    (∃ c, each (prepare directory) legs start = (.ok (), c) ∧ Prepared start directory legs c) ∨
      ∃ leg ∈ legs, ∃ e c, each (prepare directory) legs start = (.error e, c) ∧
        Unprepared start.controller.params directory leg e c.files ∧ Registering start c := by
  have hkeep : ∀ before leg after c, legs = before ++ leg :: after →
      Prepared start directory before c →
      (∃ next, prepare directory c leg = (.ok (), next) ∧
        Prepared start directory (before ++ [leg]) next) ∨
      ∃ e next, prepare directory c leg = (.error e, next) ∧
        Unprepared start.controller.params directory leg e next.files ∧
          Registering start next := by
    rintro before leg after c rfl h
    refine prepare_cases h fun other ho he => ?_
    rw [List.map_append, List.nodup_append] at hids
    exact hids.2.2 _ (List.mem_map_of_mem ho) _ (List.mem_map_of_mem (List.mem_cons_self ..)) he
  rcases each_cases _ (fun _ leg e c => Unprepared start.controller.params directory leg e c.files ∧
    Registering start c) hkeep ⟨hempty, by simp, by simp, rfl⟩ with
    hall | ⟨before, leg, after, rfl, hfails⟩
  · exact Or.inl hall
  · exact Or.inr ⟨leg, by simp, hfails⟩

theorem mem_paths {id : String} (h : Prepared start directory legs c)
    (hm : id ∈ c.controller.paths) :
    ∃ leg ∈ legs, ∃ path, leg.id = id ∧ leg.path? start.controller.params = some path := by
  rw [h.controller] at hm
  obtain ⟨entry, he, rfl⟩ := List.mem_map.1 hm
  obtain ⟨leg, hl, hpath⟩ := List.mem_filterMap.1 he
  obtain ⟨path, hknown, rfl⟩ := Option.map_eq_some_iff.1 hpath
  exact ⟨leg, hl, path, rfl, hknown⟩

/-- Loading a path that was prepared changes nothing. -/
theorem reload_prepared (h : Prepared start directory legs c)
    (hids : (legs.map Leg.id).Nodup) (hl : leg ∈ legs) {path : Path}
    (hpath : leg.path? start.controller.params = some path) :
    ∃ after, reload directory c leg.id = (.ok (), after) ∧
      Prepared start directory legs after := by
  have hroot : c.controller.params = start.controller.params := by rw [h.controller]; rfl
  obtain ⟨plan, hplan⟩ := h.planned leg hl
  obtain ⟨hsome, hfew⟩ : path.isEmpty = false ∧ path.size < countLimit := by
    rcases Leg.path?_of_plan hplan with ⟨-, hnone⟩ | ⟨path', hpath', -, -, hsome, hfew⟩
    · rw [hnone] at hpath
      cases hpath
    · rw [hpath, Option.some.injEq] at hpath'
      exact hpath' ▸ ⟨hsome, hfew⟩
  have hheld : ∀ side, c.files.Holds (fileOf c.controller.params.storageRoot directory leg.id side)
      (encoding (path.side side)) := by
    rw [hroot]
    exact h.held leg hl path hpath
  have hfind : c.controller.shared.registry.get? leg.id = some path := by
    rw [h.controller]
    exact (Leg.lookup_entries hids hl).trans hpath
  obtain ⟨notices, hload⟩ := Controller.load_of_holds c.controller hfew hheld
  have hsame : c.controller.serve (.register leg.id path) = c.controller := by
    simp only [Controller.serve, Shared.serve, Registry.insert_of_get? hfind]
  rw [hsame] at hload
  rw [reload, hload]
  exact ⟨_, rfl, h.controller, h.held, h.planned, (deeds_add_notices _ notices).trans h.quiet⟩

/-- What was prepared is loaded again as it was. -/
theorem reload_all (h : Prepared start directory legs c) (hids : (legs.map Leg.id).Nodup) :
    ∃ after, each (reload directory) c.controller.paths c = (.ok (), after) ∧
      Prepared start directory legs after := by
  have hkeep : ∀ before id later d, c.controller.paths = before ++ id :: later →
      Prepared start directory legs d →
      ∃ after, reload directory d id = (.ok (), after) ∧ Prepared start directory legs after := by
    intro before id later d hpaths hd
    obtain ⟨leg, hl, path, hid, hpath⟩ := mem_paths h (show id ∈ _ by rw [hpaths]; simp)
    rw [← hid]
    exact reload_prepared hd hids hl hpath
  have hcases := each_cases (fun _ => Prepared start directory legs) (fun _ _ _ _ => False)
    (fun before id later d hpaths hd => Or.inl (hkeep before id later d hpaths hd)) h
  exact hcases.resolve_right fun ⟨_, _, _, _, _, _, _, hfalse⟩ => hfalse

end Course

end SkidSteer
