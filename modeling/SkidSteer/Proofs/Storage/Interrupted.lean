import Mathlib.Logic.Relation
import SkidSteer.Proofs.Storage.Places
import SkidSteer.Proofs.Storage.Separate

namespace SkidSteer

open Storage FileSystem

variable {root directory id : String} {fs fs' : FileSystem} {new : Path} {registry : Registry}

namespace Storage.FileSystem

/-- The path that the two files hold, as storing it left them, or that there are no such files. -/
def Stored (fs : FileSystem) (root directory id : String) : Option Path → Prop
  | some path => path.size < countLimit ∧ path.isEmpty = false ∧ ∀ side,
      fs.node? (placeFrom fs.working (fileOf root directory id side)) =
        some (.file (encoding (path.side side)))
  | none => ∀ side bytes,
      fs.node? (placeFrom fs.working (fileOf root directory id side)) ≠ some (.file bytes)

/-- Both files are found, and hold a path. -/
def Whole (fs : FileSystem) (root directory id : String) (path : Path) : Prop :=
  path.size < countLimit ∧
    ∀ side, fs.Holds (fileOf root directory id side) (encoding (path.side side))

/-- One of the files does not hold what it announces. -/
def Torn (fs : FileSystem) (root directory id : String) : Prop :=
  ∃ side bytes, fs.Holds (fileOf root directory id side) bytes ∧ ∀ n, ¬Complete n bytes

theorem Stored.of_sparesFiles (h : SparesFiles fs fs') {old : Option Path}
    (hold : fs.Stored root directory id old) : fs'.Stored root directory id old := by
  cases old with
  | none =>
    intro side bytes hf
    rw [h.working, h.file_iff not_false] at hf
    exact hold side bytes hf
  | some path =>
    obtain ⟨hfew, hnonempty, hfiles⟩ := hold
    refine ⟨hfew, hnonempty, fun side => ?_⟩
    rw [h.working, h.file_iff not_false]
    exact hfiles side

/-- What a file holds that is found is what is at its place. -/
theorem node?_of_holds {side : Side} {bytes : List UInt8}
    (h : fs.Holds (fileOf root directory id side) bytes) :
    fs.node? (placeFrom fs.working (fileOf root directory id side)) = some (.file bytes) := by
  obtain ⟨place, hl, hn⟩ := h
  rw [← place_of_locate hl]
  exact hn

theorem Whole.stored {path : Path} (h : fs.Whole root directory id path)
    (hnonempty : path.isEmpty = false) : fs.Stored root directory id (some path) :=
  ⟨h.1, hnonempty, fun side => node?_of_holds (h.2 side)⟩

end Storage.FileSystem

namespace Controller

/-- The path that a load registers. -/
def Loads (c : Controller) (fs : FileSystem) (directory id : String) (path : Path) : Prop :=
  ∃ notices, c.load fs directory id = (.ok (), c.serve (.register id path), notices) ∧
    (c.serve (.register id path)).path? id = some path

/-- A load that fails changes nothing. -/
def LoadFails (c : Controller) (fs : FileSystem) (directory id : String) : Prop :=
  ∃ e notices, c.load fs directory id = (.error e, c, notices)

theorem Loads.of_whole {c : Controller} {path : Path} (hnonempty : path.isEmpty = false)
    (h : fs.Whole c.params.storageRoot directory id path) : c.Loads fs directory id path := by
  obtain ⟨notices, hload⟩ := load_of_holds c h.1 h.2
  exact ⟨notices, hload, path?_register c hnonempty⟩

/-- What is opened is a file with its bytes, or a directory that nothing can be read from. -/
theorem openFile_eq_ok {side : Side} {source : Source} {notices : List Notice}
    (h : openFile fs (fileOf root directory id side) = (.ok source, notices)) :
    fs.Holds (fileOf root directory id side) source.rest ∨ source.rest = [] := by
  rw [openFile, openSource, find] at h
  cases hl : fs.locate (fileOf root directory id side) with
  | error e =>
    rw [hl] at h
    cases h
  | ok place =>
    rw [hl] at h
    simp only [bind, Except.bind, endsInSeparator_fileOf] at h
    cases hn : fs.node? place with
    | none =>
      rw [hn] at h
      cases h
    | some node =>
      rw [hn] at h
      cases node with
      | directory =>
        cases h
        exact Or.inr rfl
      | file bytes =>
        cases h
        exact Or.inl ⟨place, hl, hn⟩

/-- What is loaded without a failure is in both files, which hold what they announce. -/
theorem loadFails_or_holds (c : Controller) (fs : FileSystem) (directory id : String) :
    c.LoadFails fs directory id ∨ ∃ n, ∀ side, ∃ bytes,
      fs.Holds (fileOf c.params.storageRoot directory id side) bytes ∧ Complete n bytes := by
  unfold LoadFails
  rw [load, files, files_eq]
  rcases hl : openFile fs (fileOf c.params.storageRoot directory id .left) with ⟨e | left, noted⟩
  · exact Or.inl ⟨_, _, rfl⟩
  · rcases hr : openFile fs (fileOf c.params.storageRoot directory id .right) with
      ⟨e | right, noted'⟩
    · exact Or.inl ⟨_, _, rfl⟩
    · rcases hd : decode left right with ⟨e | path, s, t⟩
      · exact Or.inl ⟨.ofStore e, [.notLoaded id e], by simp only [loadFrom, hd]⟩
      · obtain ⟨n, hleft, hright⟩ := (decodes_iff rfl rfl).1 ⟨path, s, t, hd⟩
        have hholds : ∀ {side source noted},
            openFile fs (fileOf c.params.storageRoot directory id side) = (.ok source, noted) →
              Complete n source.rest →
                fs.Holds (fileOf c.params.storageRoot directory id side) source.rest := by
          intro side source noted ho hc
          rcases openFile_eq_ok ho with hh | hnil
          · exact hh
          · rw [hnil] at hc
            exact absurd hc (not_complete_nil n)
        refine Or.inr ⟨n, fun side => ?_⟩
        cases side with
        | left => exact ⟨_, hholds hl hleft, hleft⟩
        | right => exact ⟨_, hholds hr hright, hright⟩

theorem LoadFails.of_torn (c : Controller) (h : fs.Torn c.params.storageRoot directory id) :
    c.LoadFails fs directory id := by
  obtain ⟨side, bytes, hf, hnone⟩ := h
  rcases loadFails_or_holds c fs directory id with hfails | ⟨n, hholds⟩
  · exact hfails
  · obtain ⟨bytes', hf', hcomplete⟩ := hholds side
    have hsame := node?_of_holds hf'
    rw [node?_of_holds hf] at hsame
    cases hsame
    exact absurd hcomplete (hnone n)

/-- What was stored is loaded, unless the load fails. -/
theorem Loads.of_stored {c : Controller} {old : Option Path}
    (h : fs.Stored c.params.storageRoot directory id old) :
    (∃ path, old = some path ∧ c.Loads fs directory id path) ∨ c.LoadFails fs directory id := by
  rcases loadFails_or_holds c fs directory id with hfails | ⟨n, hholds⟩
  · exact Or.inr hfails
  · cases old with
    | none =>
      obtain ⟨bytes, hf, -⟩ := hholds .left
      exact absurd (node?_of_holds hf) (h .left bytes)
    | some path =>
      obtain ⟨hfew, hnonempty, hfiles⟩ := h
      refine Or.inl ⟨path, rfl, Loads.of_whole hnonempty ⟨hfew, fun side => ?_⟩⟩
      obtain ⟨bytes, hf, -⟩ := hholds side
      have hsame := node?_of_holds hf
      rw [hfiles side] at hsame
      cases hsame
      exact hf

end Controller

namespace Storing

/-- One step of storing where it may also be refused a file, with at most directories made, and
where the files take as little as they like of what is written. -/
inductive Attempt (root directory id : String) (registry : Registry) :
    FileSystem × Storing → FileSystem × Storing → Prop where
  | step (fs : FileSystem) (stage : Storing) (sinks : Sink × Sink) (left : sinks.1.accepted = #[])
      (right : sinks.2.accepted = #[]) {after : FileSystem} {next : Storing} {notices : List Notice}
      (steps : stage.step (.of root directory id) id sinks registry fs = (after, next, notices)) :
      Attempt root directory id registry (fs, stage) (after, next)
  | refusedLeft {fs after : FileSystem} (made : SparesFiles fs after) (error : StoreError) :
      Attempt root directory id registry (fs, .createLeft) (after, .done (.error error))
  | refusedRight {fs after : FileSystem} (made : SparesFiles fs after) (error : StoreError) :
      Attempt root directory id registry (fs, .createRight) (after, .done (.error error))

abbrev Attempts (root directory id : String) (registry : Registry) :
    FileSystem × Storing → FileSystem × Storing → Prop :=
  Relation.ReflTransGen (Attempt root directory id registry)

/-- What storing a path has made of the files it began with. -/
def Leaves (root directory id : String) (new : Path) (before after : FileSystem) : Storing → Prop
  | .lookUp | .createLeft => SparesFiles before after
  | .createRight => after.Holds (fileOf root directory id .left) []
  | .lookUpAgain => ∀ side, after.Holds (fileOf root directory id side) []
  | .write path => path = new ∧ ∀ side, after.Holds (fileOf root directory id side) []
  | .done (.ok ()) => after.Whole root directory id new
  | .done (.error _) => SparesFiles before after ∨ after.Torn root directory id ∨
      after.Whole root directory id new

theorem torn_of_empty {side : Side} (h : fs.Holds (fileOf root directory id side) []) :
    fs.Torn root directory id :=
  ⟨side, [], h, not_complete_nil⟩

/-- The left file stays empty while the right one is opened, or is not. -/
theorem createRight_holds (h : fs.Holds (fileOf root directory id .left) []) {sinks : Sink × Sink}
    {after : FileSystem} {next : Storing} {notices : List Notice}
    (hs : Storing.createRight.step (.of root directory id) id sinks registry fs =
      (after, next, notices)) :
    next = .lookUpAgain ∧ (∀ side, after.Holds (fileOf root directory id side) []) ∨
      ∃ e, next = .done (.error e) ∧ after.Holds (fileOf root directory id .left) [] := by
  obtain ⟨_, _, _, ho, hspares, hstage⟩ := openFile_spares root directory id fs .right .lookUpAgain
  rw [files_eq, step, ho] at hs
  cases hs
  obtain ⟨bytes, hkept, hsame⟩ := hspares.holds h
  have hempty : bytes = [] := by
    apply hsame
    intro place hl ht
    cases (lastName_inj (lastName_of_locate hl ht)).2
  subst hempty
  rcases hstage with ⟨rfl, hholds⟩ | ⟨e, rfl, -⟩
  · refine Or.inl ⟨rfl, fun side => ?_⟩
    cases side with
    | left => exact hkept
    | right => exact hholds
  · exact Or.inr ⟨e, rfl, hkept⟩

/-- A path is in the files once both are written; before that one of them is broken off. -/
theorem leaves_write (before : FileSystem) (path : Path)
    (h : ∀ side, fs.Holds (fileOf root directory id side) []) (sinks : Sink × Sink)
    (hleft : sinks.1.accepted = #[]) (hright : sinks.2.accepted = #[]) {after : FileSystem}
    {next : Storing} {notices : List Notice}
    (hs : (Storing.write path).step (.of root directory id) id sinks registry fs =
      (after, next, notices)) : Leaves root directory id path before after next := by
  obtain ⟨result, l, r, lb, rb, he, hl, hcases⟩ := encode_written path sinks.1 sinks.2
  rw [files_eq, step, he] at hs
  obtain rfl : lb = l.accepted.toList := by simp [hl.accepted, hleft]
  obtain rfl : rb = r.accepted.toList := by
    rcases hcases with ⟨-, -, hr, -⟩ | ⟨-, -, rfl, rfl⟩
    · simp [hr.accepted, hright]
    · simp [hright]
  obtain ⟨-, hholdsl, hholdsr⟩ := writes_hold (h .left) (h .right) l.accepted.toList
    r.accepted.toList
  have hwhole : l.accepted.toList = encoding (path.side .left) →
      r.accepted.toList = encoding (path.side .right) →
        ((fs.write (fileOf root directory id .left) l.accepted.toList).write
          (fileOf root directory id .right) r.accepted.toList).Whole root directory id path := by
    intro hlall hrall
    refine ⟨path.length_side .left ▸ hl.few hlall, fun side => ?_⟩
    cases side with
    | left => exact hlall ▸ hholdsl
    | right => exact hrall ▸ hholdsr
  cases result with
  | ok =>
    cases hs
    rcases hcases with ⟨hlall, -, -, hresult⟩ | ⟨-, hfails, -⟩
    · exact hwhole hlall (hresult.1 rfl).1
    · exact absurd rfl hfails
  | error e =>
    cases hs
    -- Where the left side went through and the right one as well, only a flush has failed.
    rcases hcases with ⟨hlall, -, hr, -⟩ | ⟨-, -, -, hnone⟩
    · by_cases hrall : r.accepted.toList = encoding (path.side .right)
      · exact Or.inr (Or.inr (hwhole hlall hrall))
      · have hfew : path.size < countLimit := path.length_side .left ▸ hl.few hlall
        exact Or.inr (Or.inl ⟨.right, _, hholdsr, not_complete_of_front hfew hr.front hrall⟩)
    · rw [hnone] at hholdsr
      rw [hnone]
      exact Or.inr (Or.inl (torn_of_empty hholdsr))

theorem Leaves.attempt (hp : registry.get? id = some new) {before after : FileSystem}
    {stage next : Storing} (h : Leaves root directory id new before fs stage)
    (ha : Attempt root directory id registry (fs, stage) (after, next)) :
    Leaves root directory id new before after next := by
  cases ha with
  | step _ _ sinks hleft hright hs =>
    cases stage with
    | lookUp =>
      have hk : registry.contains id = true := by simp [Registry.contains, hp]
      rw [step, if_pos hk] at hs
      cases hs
      exact h
    | createLeft =>
      obtain ⟨_, _, _, ho, -, hstage⟩ := openFile_spares root directory id fs .left .createRight
      rw [files_eq, step, ho] at hs
      cases hs
      rcases hstage with ⟨rfl, hholds⟩ | ⟨e, rfl, hnone⟩
      · exact hholds
      · exact Or.inl (Spares.trans h hnone)
    | createRight =>
      rcases createRight_holds h hs with ⟨rfl, hempty⟩ | ⟨e, rfl, hleft⟩
      · exact hempty
      -- The left file was emptied before the right one could be opened.
      · exact Or.inr (Or.inl (torn_of_empty hleft))
    | lookUpAgain =>
      rw [step, hp] at hs
      cases hs
      exact ⟨rfl, h⟩
    | write path =>
      obtain ⟨rfl, hempty⟩ := h
      exact leaves_write before path hempty sinks hleft hright hs
    | done result =>
      cases hs
      exact h
  | refusedLeft made error => exact Or.inl (Spares.trans h made)
  | refusedRight made error =>
    obtain ⟨bytes, hkept, hsame⟩ := made.holds h
    obtain rfl := hsame fun _ _ => not_false
    exact Or.inr (Or.inl (torn_of_empty hkept))

theorem Leaves.attempts (hp : registry.get? id = some new) {after : FileSystem} {stage : Storing}
    (h : Attempts root directory id registry (fs, .lookUp) (after, stage)) :
    Leaves root directory id new fs after stage := by
  generalize hend : (after, stage) = last at h
  induction h generalizing after stage with
  | refl =>
    cases hend
    exact Spares.refl _ fs
  | @tail between _ _ hstep ih =>
    subst hend
    exact (@ih between.1 between.2 rfl).attempt hp hstep

/-- The old files are there, or one is broken off, or the new path is there. -/
theorem Leaves.cases {before after : FileSystem} {stage : Storing}
    (h : Leaves root directory id new before after stage) :
    SparesFiles before after ∨ after.Torn root directory id ∨
      after.Whole root directory id new := by
  cases stage with
  | lookUp => exact Or.inl h
  | createLeft => exact Or.inl h
  | createRight => exact Or.inr (Or.inl (torn_of_empty h))
  | lookUpAgain => exact Or.inr (Or.inl (torn_of_empty (h .left)))
  | write path => exact Or.inr (Or.inl (torn_of_empty (h.2 .left)))
  | done result =>
    cases result with
    | ok => exact Or.inr (Or.inr h)
    | error e => exact h

def left : Storing → Nat
  | .lookUp => 5
  | .createLeft => 4
  | .createRight => 3
  | .lookUpAgain => 2
  | .write _ => 1
  | .done _ => 0

theorem left_step (files : PathFiles) (id : String) (sinks : Sink × Sink) (registry : Registry)
    (fs : FileSystem) (stage : Storing) :
    (stage.step files id sinks registry fs).2.1.left ≤ stage.left - 1 := by
  cases stage with
  | lookUp =>
    rw [step]
    split <;> simp [left]
  | createLeft =>
    rw [step, openFile]
    split <;> simp [left]
  | createRight =>
    rw [step, openFile]
    split <;> simp [left]
  | lookUpAgain =>
    rw [step]
    split <;> simp [left]
  | write path =>
    rw [step]
    rcases encode path sinks.1 sinks.2 with ⟨e | ⟨⟩, l, r⟩ <;> exact Nat.le_refl 0
  | done result => exact Nat.le_refl 0

theorem run_done (files : PathFiles) (id : String) (sinks : Sink × Sink) (registry : Registry)
    (fs : FileSystem) {stage : Storing} {steps : Nat} (h : stage.left ≤ steps) :
    ∃ result, (run files id sinks registry steps fs stage).2.1 = .done result := by
  induction steps generalizing fs stage with
  | zero =>
    cases stage with
    | done result => exact ⟨result, rfl⟩
    | _ => cases h
  | succ more ih =>
    have hless := left_step files id sinks registry fs stage
    have hmore : (stage.step files id sinks registry fs).2.1.left ≤ more := by omega
    exact ih _ hmore

/-- Storing that nothing disturbs goes through such steps. -/
theorem run_attempts (root directory id : String) (registry : Registry) (steps : Nat)
    (fs : FileSystem) (stage : Storing) :
    Attempts root directory id registry (fs, stage)
      ((run (.of root directory id) id (.unlimited, .unlimited) registry steps fs stage).1,
        (run (.of root directory id) id (.unlimited, .unlimited) registry steps fs stage).2.1) := by
  induction steps generalizing fs stage with
  | zero => exact .refl
  | succ more ih =>
    have hfirst : Attempt root directory id registry (fs, stage)
        ((stage.step (.of root directory id) id (.unlimited, .unlimited) registry fs).1,
          (stage.step (.of root directory id) id (.unlimited, .unlimited) registry fs).2.1) :=
      .step fs stage (.unlimited, .unlimited) rfl rfl rfl
    exact .head hfirst (ih _ _)

end Storing

namespace Controller

/-- A call that stores a path goes through such steps to its end, and gives their result. -/
theorem store_attempts (c : Controller) (fs : FileSystem) (directory id : String) :
    ∃ result, Storing.Attempts c.params.storageRoot directory id c.shared.registry (fs, .lookUp)
        ((c.store fs directory id).2.1, .done result) ∧
      (c.store fs directory id).1 = result.mapError .ofStore := by
  rcases hr : Storing.run (c.files directory id) id (.unlimited, .unlimited) c.shared.registry
    Storing.longest fs .lookUp with ⟨after, stage, notices⟩
  have hlongest : Storing.lookUp.left ≤ Storing.longest := Nat.le_refl 5
  obtain ⟨result, hdone⟩ := Storing.run_done (c.files directory id) id (.unlimited, .unlimited)
    c.shared.registry fs hlongest
  rw [hr] at hdone
  obtain rfl : stage = .done result := hdone
  have hruns : Storing.Attempts c.params.storageRoot directory id c.shared.registry (fs, .lookUp)
      (after, .done result) := by
    have hsteps := Storing.run_attempts c.params.storageRoot directory id c.shared.registry
      Storing.longest fs .lookUp
    rw [← files, hr] at hsteps
    exact hsteps
  refine ⟨result, ?_⟩
  rw [store, hr]
  cases result with
  | error e => exact ⟨hruns, rfl⟩
  | ok => exact ⟨hruns, rfl⟩

/-- Wherever storing a path stops, and however it fails, what is loaded afterwards is the new path,
or the one that was stored there before, or nothing, and it is the new path where storing
succeeded. -/
theorem store_leaves_no_torn_path (params : Params Float) (converter : Converter Float)
    (chassis : Drivetrain) (actions : List Action) {fs : FileSystem} {directory id : String}
    {new : Path} {old : Option Path}
    (hp : ((fresh params converter chassis).after actions).path? id = some new)
    (hold : fs.Stored params.storageRoot directory id old) :
    let c := (fresh params converter chassis).after actions
    (∃ result, Storing.Attempts params.storageRoot directory id c.shared.registry (fs, .lookUp)
        ((c.store fs directory id).2.1, .done result) ∧
      (c.store fs directory id).1 = result.mapError .ofStore) ∧
    ∀ after stage, Storing.Attempts params.storageRoot directory id c.shared.registry
        (fs, .lookUp) (after, stage) →
      ∀ loading : Controller, loading.params.storageRoot = params.storageRoot →
        (stage = .done (.ok ()) →
          after.Stored params.storageRoot directory id (some new) ∧
            loading.Loads after directory id new) ∧
        (loading.Loads after directory id new ∨
          (∃ path, old = some path ∧ loading.Loads after directory id path) ∨
          loading.LoadFails after directory id) := by
  intro c
  have hroot : c.params.storageRoot = params.storageRoot :=
    congrArg Params.storageRoot after_params
  refine ⟨?_, ?_⟩
  · rw [← hroot]
    exact c.store_attempts fs directory id
  · intro after stage hreach loading hloading
    have hnonempty : new.isEmpty = false := isEmpty_of_path? hp
    have hleaves : Storing.Leaves params.storageRoot directory id new fs after stage :=
      Storing.Leaves.attempts hp hreach
    refine ⟨?_, ?_⟩
    · rintro rfl
      have hwhole : after.Whole params.storageRoot directory id new := hleaves
      exact ⟨hwhole.stored hnonempty, Loads.of_whole hnonempty (hloading ▸ hwhole)⟩
    · rcases hleaves.cases with hspares | htorn | hwhole
      · exact Or.inr (Loads.of_stored (hloading ▸ hold.of_sparesFiles hspares))
      · exact Or.inr (Or.inr (LoadFails.of_torn loading (hloading ▸ htorn)))
      · exact Or.inl (Loads.of_whole hnonempty (hloading ▸ hwhole))

/-- A path is stored over another, once to the end and once without the right file. -/
theorem store_over_another :
    let fs := device (storedOver [] oneSample)
    let stored := device (storedOver (storedOver [] oneSample) twoSamples)
    let emptied := device (put (sharedPlace .left) (.file []) (storedOver [] oneSample))
    let refusal := StoreError.ioFailed IoKind.permissionDenied.error
    let attempts := Storing.Attempts "/usd" "d" "A" knowsOne.shared.registry (fs, .lookUp)
    knowsOne.path? "A" = some twoSamples ∧ fs.Stored "/usd" "d" "A" (some oneSample) ∧
      attempts (stored, .done (.ok ())) ∧ knowsOne.Loads stored "d" "A" twoSamples ∧
      attempts (emptied, .done (.error refusal)) ∧
      (knowsOne.Loads emptied "d" "A" twoSamples ∨
        (∃ path, some oneSample = some path ∧ knowsOne.Loads emptied "d" "A" path) ∨
        knowsOne.LoadFails emptied "d" "A") := by
  intro fs stored emptied refusal attempts
  have hp : knowsOne.path? "A" = some twoSamples := rfl
  have hold : fs.Stored "/usd" "d" "A" (some oneSample) := by
    refine ⟨by decide, rfl, fun side => ?_⟩
    have hplace := place_of_locate (locate_device (storedOver [] oneSample) side)
    rw [← hplace]
    cases side <;> rfl
  have hfree : ∀ side, fs.node? (sharedPlace side) ≠ some .directory := by
    intro side
    cases side <;> nofun
  obtain ⟨⟨result, hruns, hresult⟩, hall⟩ := store_leaves_no_torn_path
    (.ofGeometry ⟨1.0, 1.0, 1.0⟩ ⟨1.0, 1.0⟩ 1.0) ⟨.linear, 1.0, 1.0, 1.0⟩ (.ofLimit 1.0)
    [.request (.register "A" twoSamples)] hp hold
  have hs : knowsOne.store fs "d" "A" = (.ok (), stored, [.stored "A" 2]) :=
    store_device rfl rfl hp (by decide) hfree
  have hstored : attempts (stored, .done (.ok ())) := by
    change Storing.Attempts _ _ _ _ _ ((knowsOne.store fs "d" "A").2.1, _) at hruns
    change (knowsOne.store fs "d" "A").1 = _ at hresult
    rw [hs] at hruns hresult
    cases result with
    | error e => cases hresult
    | ok => exact hruns
  have hemptied : attempts (emptied, .done (.error refusal)) := by
    have hlook : Storing.Attempt "/usd" "d" "A" knowsOne.shared.registry (fs, .lookUp)
        (fs, .createLeft) := .step fs .lookUp (.unlimited, .unlimited) rfl rfl rfl
    have hempties : Storing.Attempt "/usd" "d" "A" knowsOne.shared.registry (fs, .createLeft)
        (emptied, .createRight) := by
      have hopen : Storing.createLeft.step (.of "/usd" "d" "A") "A" (.unlimited, .unlimited)
          knowsOne.shared.registry fs = (emptied, .createRight, []) := by
        rw [files_eq]
        exact openFile_device (hfree .left) .createRight
      exact .step fs .createLeft (.unlimited, .unlimited) rfl rfl hopen
    exact ((Relation.ReflTransGen.single hlook).tail hempties).tail
      (.refusedRight (Spares.refl _ _) refusal)
  exact ⟨hp, hold, hstored, ((hall _ _ hstored knowsOne rfl).1 rfl).2, hemptied,
    (hall _ _ hemptied knowsOne rfl).2⟩

end Controller

end SkidSteer
