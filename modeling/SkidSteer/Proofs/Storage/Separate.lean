import Mathlib
import SkidSteer.Proofs.Control.Disabling
import SkidSteer.Proofs.Control.Paths
import SkidSteer.Proofs.Storage.Files
import SkidSteer.Proofs.Storage.Stored

namespace SkidSteer

open Storage FileSystem

variable {root directory id : String} {fs after : FileSystem} {path : Path}

/-- A file that takes everything takes a path, unless it has too many samples. -/
theorem Storing.step_write (hfew : path.size < countLimit) (registry : Registry) (fs : FileSystem) :
    (Storing.write path).step (.of root directory id) id (.unlimited, .unlimited) registry fs =
      ((fs.write (fileOf root directory id .left) (encoding (path.side .left))).write
        (fileOf root directory id .right) (encoding (path.side .right)), .done (.ok ()),
        [.stored id path.size]) := by
  have hroom : ∀ n, Sink.unlimited.Holds n := fun n room h => nomatch h
  have htoList : ∀ bytes : List UInt8, (Sink.unlimited.accepted ++ bytes).toList = bytes :=
    fun bytes => by simp [Sink.unlimited]
  obtain ⟨l, r, he, hal, har⟩ := encode_of_holds hfew (hroom _) rfl (hroom _) rfl
  simp only [files_eq, step, he, hal, har, htoList]

/-- Where both files can be opened, both are written. -/
theorem Storing.run_opened {registry : Registry} (hp : registry.get? id = some path)
    {fs₁ fs₂ : FileSystem} {notices₁ notices₂ : List Notice}
    (hl : openFile fs (fileOf root directory id .left) .createRight = (fs₁, .createRight, notices₁))
    (hr : openFile fs₁ (fileOf root directory id .right) .lookUpAgain =
      (fs₂, .lookUpAgain, notices₂)) :
    let stored := Storing.run (PathFiles.of root directory id) id (.unlimited, .unlimited) registry
      Storing.longest fs .lookUp
    (path.size < countLimit → stored =
      ((fs₂.write (fileOf root directory id .left) (encoding (path.side .left))).write
        (fileOf root directory id .right) (encoding (path.side .right)), .done (.ok ()),
        notices₁ ++ (notices₂ ++ [.stored id path.size]))) ∧
    (countLimit ≤ path.size → stored.2.1 = .done (.error (.tooLong path.size))) := by
  have hk : registry.contains id = true := by simp [Registry.contains, hp]
  have hlook : Storing.lookUp.step (.of root directory id) id (.unlimited, .unlimited) registry fs =
      (fs, .createLeft, []) := by rw [step, if_pos hk]
  have hleft : Storing.createLeft.step (.of root directory id) id (.unlimited, .unlimited) registry
      fs = (fs₁, .createRight, notices₁) := by rw [files_eq, step, hl]
  have hright : Storing.createRight.step (.of root directory id) id (.unlimited, .unlimited)
      registry fs₁ = (fs₂, .lookUpAgain, notices₂) := by rw [files_eq, step, hr]
  have hagain : Storing.lookUpAgain.step (.of root directory id) id (.unlimited, .unlimited)
      registry fs₂ = (fs₂, .write path, []) := by rw [step, hp]
  simp only [Storing.longest, Storing.run, hlook, hleft, hright, hagain]
  constructor
  · intro hfew
    simp only [step_write hfew, List.nil_append, List.append_nil]
  · intro hmany
    have hlong : countLimit ≤ (path.side .left).length := by
      rw [path.length_side]
      exact hmany
    simp only [step, encode, writeSide_tooLong hlong, path.length_side]

/-- A path that was stored without a failure is in its two files. -/
theorem Storing.run_holds {registry : Registry} (hp : registry.get? id = some path)
    {stage : Storing} {notices : List Notice}
    (hr : Storing.run (PathFiles.of root directory id) id (.unlimited, .unlimited) registry
      Storing.longest fs .lookUp = (after, stage, notices))
    (hok : ∀ e, stage ≠ .done (.error e)) :
    path.size < countLimit ∧
      ∀ side, after.Holds (fileOf root directory id side) (encoding (path.side side)) := by
  have hk : registry.contains id = true := by simp [Registry.contains, hp]
  obtain ⟨fs₁, stage₁, notices₁, ho₁, -, hstage₁⟩ :=
    openFile_spares root directory id fs .left .createRight
  obtain ⟨fs₂, stage₂, notices₂, ho₂, hspares, hstage₂⟩ :=
    openFile_spares root directory id fs₁ .right .lookUpAgain
  rcases hstage₁ with ⟨rfl, hleft⟩ | ⟨e, rfl, -⟩
  · rcases hstage₂ with ⟨rfl, hright⟩ | ⟨e, rfl, -⟩
    · obtain ⟨hstored, hlong⟩ := Storing.run_opened hp ho₁ ho₂
      rw [hr] at hstored hlong
      by_cases hfew : path.size < countLimit
      · cases hstored hfew
        obtain ⟨bytes, hkept, -⟩ := hspares.holds hleft
        obtain ⟨-, hl, hr⟩ := writes_hold hkept hright (encoding (path.side .left))
          (encoding (path.side .right))
        refine ⟨hfew, fun side => ?_⟩
        cases side with
        | left => exact hl
        | right => exact hr
      · exact absurd (hlong (Nat.le_of_not_lt hfew)) (hok _)
    · simp only [Storing.longest, Storing.run, Storing.step, files_eq, hk, if_true, ho₁, ho₂,
        Prod.mk.injEq] at hr
      exact absurd hr.2.1.symm (hok e)
  · simp only [Storing.longest, Storing.run, Storing.step, files_eq, hk, if_true, ho₁,
      Prod.mk.injEq] at hr
    exact absurd hr.2.1.symm (hok e)

theorem openFile_of_holds {side : Side} {bytes : List UInt8}
    (h : fs.Holds (fileOf root directory id side) bytes) :
    Controller.openFile fs (fileOf root directory id side) = (.ok (.ofBytes bytes), []) := by
  obtain ⟨place, hl, hn⟩ := h
  have hfind : fs.find (fileOf root directory id side) = .ok (.file bytes) := by
    rw [find, hl]
    simp [bind, Except.bind, hn, endsInSeparator_fileOf, pure, Except.pure]
  rw [Controller.openFile, openSource, hfind]
  rfl

namespace Controller

/-- What is in the two files is what is loaded. -/
theorem load_of_holds (c : Controller) (hfew : path.size < countLimit)
    (hf : ∀ side, fs.Holds (fileOf c.params.storageRoot directory id side)
      (encoding (path.side side))) :
    ∃ notices, c.load fs directory id = (.ok (), c.serve (.register id path), notices) := by
  have hleft := openFile_of_holds (hf .left)
  have hright := openFile_of_holds (hf .right)
  obtain ⟨s, t, hd, -⟩ := decodes_encodings hfew [] [] (.ofBytes (encoding (path.side .left)))
    (.ofBytes (encoding (path.side .right))) (List.append_nil _).symm (List.append_nil _).symm
  refine ⟨(c.register .loaded id path).2, ?_⟩
  rw [load, files, files_eq]
  simp only [hleft, hright, loadFrom, hd, register, mapError_ok]

theorem store_holds {c : Controller} {notices : List Notice} (hp : c.path? id = some path)
    (hs : c.store fs directory id = (.ok (), after, notices)) :
    path.size < countLimit ∧ ∀ side,
      after.Holds (fileOf c.params.storageRoot directory id side) (encoding (path.side side)) := by
  rcases hr : Storing.run (c.files directory id) id (.unlimited, .unlimited) c.shared.registry
    Storing.longest fs .lookUp with ⟨stored, stage, noted⟩
  rw [store, hr] at hs
  have hok : ∀ e, stage ≠ .done (.error e) := by
    rintro e rfl
    cases hs
  have hafter : stored = after := by
    split at hs
    · cases hs
    · rename_i he
      cases he
      cases hs
      rfl
  subst hafter
  exact Storing.run_holds hp hr hok

/-- Where both files can be opened, a path is stored, unless it has too many samples. -/
theorem store_of_opened {c : Controller} (hp : c.path? id = some path)
    (hfew : path.size < countLimit) {fs₁ fs₂ : FileSystem} {notices₁ notices₂ : List Notice}
    (hl : Storing.openFile fs (fileOf c.params.storageRoot directory id .left) .createRight =
      (fs₁, .createRight, notices₁))
    (hr : Storing.openFile fs₁ (fileOf c.params.storageRoot directory id .right) .lookUpAgain =
      (fs₂, .lookUpAgain, notices₂)) :
    c.store fs directory id =
      (.ok (), (fs₂.write (fileOf c.params.storageRoot directory id .left)
        (encoding (path.side .left))).write (fileOf c.params.storageRoot directory id .right)
        (encoding (path.side .right)), notices₁ ++ (notices₂ ++ [.stored id path.size])) := by
  have hrun := (Storing.run_opened hp hl hr).1 hfew
  rw [store, files, hrun]

theorem path?_register (c : Controller) (h : path.isEmpty = false) :
    (c.serve (.register id path)).path? id = some path := by
  change (c.shared.registry.insert id path).get? id = some path
  rw [Registry.get?_insert h, if_pos rfl]

end Controller

/-- Ids that differ in forbidden characters alone share their files. -/
theorem fileOf_eq_of_cleanName {id' : String} (h : cleanName id.toList = cleanName id'.toList)
    (root directory : String) (side : Side) :
    fileOf root directory id side = fileOf root directory id' side := by
  apply String.toList_injective
  rw [toList_fileOf, toList_fileOf, h]

/-- The files of two paths lie at different places. -/
def Apart (fs : FileSystem) (root directory id directory' id' : String) : Prop :=
  ∀ side place, fs.locate (fileOf root directory id side) = .ok place →
    fs.locate (fileOf root directory' id' side) ≠ .ok place

/-- Ids that still differ without the forbidden characters keep their files apart, in whatever
directories. -/
theorem apart_of_cleanName_ne {id' : String} (h : cleanName id.toList ≠ cleanName id'.toList)
    (fs : FileSystem) (root directory directory' : String) :
    Apart fs root directory id directory' id' := by
  intro side place hl hl'
  exact h (lastName_inj (lastName_of_locate hl hl')).1

theorem Apart.not_touches {directory' id' : String} (h : Apart fs root directory id directory' id')
    {side : Side} {place : List String}
    (hl : fs.locate (fileOf root directory id side) = .ok place) :
    ¬Storing.Touches root directory' id' fs place := by
  rintro ⟨side', hl'⟩
  obtain rfl : side = side' := (lastName_inj (lastName_of_locate hl hl')).2
  exact h side place hl hl'

namespace Controller

variable (params : Params Float) (converter : Converter Float) (chassis : Drivetrain)

/-- A path that was stored is loaded as it was, after another path was stored under another id,
successfully or not, unless their files lie at the same places. They do not when the ids still
differ without the forbidden characters. -/
theorem stored_path_survives (actions : List Action) {fs stored : FileSystem}
    {directory id : String} {path : Path} {notices : List Notice}
    (hp : ((fresh params converter chassis).after actions).path? id = some path)
    (hs : ((fresh params converter chassis).after actions).store fs directory id =
      (.ok (), stored, notices))
    (directory' id' : String) (sinks : Sink × Sink) (registry : Registry) (steps : Nat)
    (hapart : cleanName id.toList ≠ cleanName id'.toList ∨
      Apart (Storing.run (.of params.storageRoot directory' id') id' sinks registry steps stored
        .lookUp).1 params.storageRoot directory id directory' id')
    (loading : Controller) (hroot : loading.params.storageRoot = params.storageRoot) :
    let later := (Storing.run (.of params.storageRoot directory' id') id' sinks registry steps stored
      .lookUp).1
    ∃ loaded notices, loading.load later directory id = (.ok (), loaded, notices) ∧
      loaded = loading.serve (.register id path) ∧ loaded.path? id = some path := by
  intro later
  have hnonempty : path.isEmpty = false := isEmpty_of_path? hp
  obtain ⟨hfew, hholds⟩ := store_holds hp hs
  rw [after_params, show (fresh params converter chassis).params = params from rfl] at hholds
  have hopened : Storing.Opened params.storageRoot directory' id' stored .lookUp := trivial
  have hspares := Storing.run_spares sinks registry steps hopened
  have haparts : Apart later params.storageRoot directory id directory' id' :=
    hapart.elim (fun h => apart_of_cleanName_ne h later _ _ _) fun h => h
  have hkept : ∀ side, later.Holds (fileOf loading.params.storageRoot directory id side)
      (encoding (path.side side)) := by
    intro side
    obtain ⟨bytes, hb, hsame⟩ := hspares.holds (hholds side)
    rw [hroot, ← hsame fun place hl => haparts.not_touches hl]
    exact hb
  obtain ⟨noted, hload⟩ := load_of_holds loading hfew hkept
  exact ⟨_, noted, hload, rfl, path?_register loading hnonempty⟩

def device (files : List (List String × Node)) : FileSystem :=
  { nodes := (["usd"], .directory) :: (["usd", "d"], .directory) :: files }

/-- Where the files of two ids lie, of which one has a forbidden character more. -/
def sharedPlace : Side → List String
  | .left => ["usd", "d", "A.left.bin"]
  | .right => ["usd", "d", "A.right.bin"]

theorem locate_device (files : List (List String × Node)) (side : Side) :
    (device files).locate (fileOf "/usd" "d" "A" side) = .ok (sharedPlace side) := by
  unfold fileOf
  cases side <;> cbv

theorem set_device (files : List (List String × Node)) (side : Side) (node : Node) :
    (device files).set (sharedPlace side) node = device (put (sharedPlace side) node files) := by
  cases side <;> rfl

theorem openFile_device {files : List (List String × Node)} {side : Side}
    (h : (device files).node? (sharedPlace side) ≠ some .directory) (next : Storing) :
    Storing.openFile (device files) (fileOf "/usd" "d" "A" side) next =
      (device (put (sharedPlace side) (.file []) files), next, []) := by
  have hparent : parent? (fileOf "/usd" "d" "A" side) = some "/usd/d" := by
    unfold fileOf
    cases side <;> cbv
  have hmade : (device files).makeDirectories "/usd/d" = (.ok (), device files) := by cbv
  rw [openFile_of_locate hparent hmade (locate_device files side) h next, set_device]

theorem write_device (files : List (List String × Node)) (side : Side) (bytes : List UInt8) :
    (device files).write (fileOf "/usd" "d" "A" side) bytes =
      device (put (sharedPlace side) (.file bytes) files) := by
  rw [write, locate_device, ← set_device]

def storedOver (files : List (List String × Node)) (path : Path) : List (List String × Node) :=
  let opened := put (sharedPlace .right) (.file []) (put (sharedPlace .left) (.file []) files)
  put (sharedPlace .right) (.file (encoding (path.side .right)))
    (put (sharedPlace .left) (.file (encoding (path.side .left))) opened)

/-- A path is stored on the device under either id, unless directories are in the way. -/
theorem store_device {c : Controller} (hroot : c.params.storageRoot = "/usd") {id : String}
    (hid : cleanName id.toList = cleanName "A".toList) {path : Path} (hp : c.path? id = some path)
    (hfew : path.size < countLimit) {files : List (List String × Node)}
    (hfiles : ∀ side, (device files).node? (sharedPlace side) ≠ some .directory) :
    c.store (device files) "d" id =
      (.ok (), device (storedOver files path), [.stored id path.size]) := by
  have hfile : ∀ side, fileOf "/usd" "d" id side = fileOf "/usd" "d" "A" side :=
    fileOf_eq_of_cleanName hid "/usd" "d"
  have hleft := openFile_device (hfiles .left) .createRight
  have hright : (device (put (sharedPlace .left) (.file []) files)).node? (sharedPlace .right) ≠
      some .directory := by
    rw [← set_device, node?_set_of_ne (by decide)]
    exact hfiles .right
  have hopened := openFile_device hright .lookUpAgain
  rw [← hfile] at hleft hopened
  rw [← hroot] at hleft hopened
  rw [store_of_opened hp hfew hleft hopened, hroot, hfile, hfile, write_device, write_device]
  rfl

def oneSample : Path :=
  let still : Segment Binary64 := ⟨⟨0⟩, ⟨0⟩, ⟨0⟩⟩
  ⟨#[⟨still, still⟩]⟩

def knowsOne : Controller :=
  (fresh (.ofGeometry ⟨1.0, 1.0, 1.0⟩ ⟨1.0, 1.0⟩ 1.0) ⟨.linear, 1.0, 1.0, 1.0⟩ (.ofLimit 1.0)).after
    [.request (.register "A" twoSamples)]

def twoPaths : List Action :=
  [.request (.register "A" twoSamples), .request (.register "A:" oneSample)]

/-- The path of the one id is loaded as it was stored when another id is stored after it. -/
theorem stored_path_beside_another :
    let params := Params.ofGeometry ⟨1.0, 1.0, 1.0⟩ ⟨1.0, 1.0⟩ 1.0
    let c := (fresh params ⟨.linear, 1.0, 1.0, 1.0⟩ (.ofLimit 1.0)).after twoPaths
    let stored := device (storedOver [] twoSamples)
    let later := (Storing.run (.of "/usd" "d" "B") "B" (.unlimited, .unlimited) c.shared.registry
      Storing.longest stored .lookUp).1
    c.path? "A" = some twoSamples ∧
      c.store (device []) "d" "A" = (.ok (), stored, [.stored "A" 2]) ∧
      cleanName "A".toList ≠ cleanName "B".toList ∧
      ∃ loaded notices, c.load later "d" "A" = (.ok (), loaded, notices) ∧
        loaded = c.serve (.register "A" twoSamples) ∧ loaded.path? "A" = some twoSamples := by
  intro params c stored later
  have hp : c.path? "A" = some twoSamples := rfl
  have hfree : ∀ side, (device []).node? (sharedPlace side) ≠ some .directory := by
    intro side
    cases side <;> decide
  have hs : c.store (device []) "d" "A" = (.ok (), stored, [.stored "A" 2]) :=
    store_device rfl rfl hp (by decide) hfree
  have hne : cleanName "A".toList ≠ cleanName "B".toList := by decide
  exact ⟨hp, hs, hne, stored_path_survives params ⟨.linear, 1.0, 1.0, 1.0⟩ (.ofLimit 1.0) twoPaths hp
    hs "d" "B" (.unlimited, .unlimited) c.shared.registry Storing.longest (Or.inl hne) c rfl⟩

/-- A colon is no part of a file name, so these two ids share their files: what is loaded under the
one is what was stored under the other. -/
theorem stored_path_is_clobbered :
    let c := (fresh (.ofGeometry ⟨1.0, 1.0, 1.0⟩ ⟨1.0, 1.0⟩ 1.0) ⟨.linear, 1.0, 1.0, 1.0⟩
      (.ofLimit 1.0)).after twoPaths
    let stored := device (storedOver [] twoSamples)
    let later := device (storedOver (storedOver [] twoSamples) oneSample)
    c.path? "A" = some twoSamples ∧
      c.store (device []) "d" "A" = (.ok (), stored, [.stored "A" 2]) ∧
      c.store stored "d" "A:" = (.ok (), later, [.stored "A:" 1]) ∧
      (∃ notices, c.load later "d" "A" = (.ok (), c.serve (.register "A" oneSample), notices)) ∧
      (c.serve (.register "A" oneSample)).path? "A" ≠ some twoSamples := by
  intro c stored later
  have hp : c.path? "A" = some twoSamples := rfl
  have hp' : c.path? "A:" = some oneSample := rfl
  have hfree : ∀ side, (device []).node? (sharedPlace side) ≠ some .directory := by
    intro side
    cases side <;> decide
  have hover : ∀ side, stored.node? (sharedPlace side) ≠ some .directory := by
    intro side
    cases side <;> nofun
  have hs : c.store (device []) "d" "A" = (.ok (), stored, [.stored "A" 2]) :=
    store_device rfl rfl hp (by decide) hfree
  have hid : cleanName "A:".toList = cleanName "A".toList := by decide
  have hs' : c.store stored "d" "A:" = (.ok (), later, [.stored "A:" 1]) :=
    store_device rfl hid hp' (by decide) hover
  obtain ⟨hfew, hholds⟩ := store_holds hp' hs'
  have hshared : ∀ side, later.Holds (fileOf c.params.storageRoot "d" "A" side)
      (encoding (oneSample.side side)) := by
    intro side
    rw [← fileOf_eq_of_cleanName hid]
    exact hholds side
  refine ⟨hp, hs, hs', load_of_holds c hfew hshared, ?_⟩
  rw [path?_register c rfl]
  decide

end Controller

end SkidSteer
