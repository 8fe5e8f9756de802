import SkidSteer.Proofs.Storage.Places
import SkidSteer.Proofs.Storage.Separate

namespace SkidSteer

open Storage FileSystem

/-- Two file systems that differ in the bytes of files at most, and in those only at places
outside. -/
structure Storage.FileSystem.AgreeInside (inside : List String → Prop) (fs fs' : FileSystem) :
    Prop where
  working : fs'.working = fs.working
  inside : ∀ place, inside place → fs'.node? place = fs.node? place
  outside : ∀ place, fs'.node? place = fs.node? place ∨
    ∃ bytes bytes', fs.node? place = some (.file bytes) ∧ fs'.node? place = some (.file bytes')

namespace Storage.FileSystem.AgreeInside

variable {inside : List String → Prop} {fs fs' : FileSystem}

theorem walk_eq (h : AgreeInside inside fs fs') (place way : List String) :
    fs'.walk place way = fs.walk place way := by
  induction way generalizing place with
  | nil => rfl
  | cons name rest ih =>
    unfold walk
    rw [ih place, ih place.dropLast]
    rcases h.outside (place ++ [name]) with he | ⟨bytes, bytes', hf, hf'⟩
    · rw [he, ih (place ++ [name])]
    · rw [hf, hf']

theorem locate_eq (h : AgreeInside inside fs fs') (location : String) :
    fs'.locate location = fs.locate location := by
  rw [locate, locate, start, start, h.working, h.walk_eq]

/-- What is opened for reading is the same where it lies inside. -/
theorem openFile_eq (h : AgreeInside inside fs fs') {location : String}
    (hi : ∀ place, fs.locate location = .ok place → inside place) :
    Controller.openFile fs' location = Controller.openFile fs location := by
  have hfind : fs'.find location = fs.find location := by
    rw [find, find, h.locate_eq]
    cases hl : fs.locate location with
    | error e => rfl
    | ok place =>
      simp only [bind, Except.bind]
      rw [h.inside place (hi place hl)]
  rw [Controller.openFile, Controller.openFile, openSource, openSource, hfind]

end Storage.FileSystem.AgreeInside

namespace Controller

variable {c : Controller} {fs : FileSystem} {directory id : String}

/-- Storing, however far it gets, changes no file but the two of the path, and makes no other. -/
theorem stored_file_iff (c : Controller) (fs : FileSystem) (directory id : String)
    (sinks : Sink × Sink) (registry : Registry) (steps : Nat) {place : List String}
    (hp : ∀ side, place ≠ placeFrom fs.working (fileOf c.params.storageRoot directory id side))
    (bytes : List UInt8) :
    (Storing.run (c.files directory id) id sinks registry steps fs .lookUp).1.node? place =
      some (.file bytes) ↔ fs.node? place = some (.file bytes) := by
  have hopened : Storing.Opened c.params.storageRoot directory id fs .lookUp := trivial
  have hspares := Storing.run_spares sinks registry steps hopened
  refine hspares.file_iff ?_ bytes
  rintro ⟨side, hl⟩
  apply hp side
  rw [place_of_locate hl, hspares.working]

/-- Loading reads no file but the two of the path. -/
theorem load_eq_of_agree (c : Controller) {fs fs' : FileSystem} {inside : List String → Prop}
    (h : AgreeInside inside fs fs')
    (hi : ∀ side, inside (placeFrom fs.working (fileOf c.params.storageRoot directory id side))) :
    c.load fs' directory id = c.load fs directory id := by
  have hopen : ∀ side, openFile fs' (fileOf c.params.storageRoot directory id side) =
      openFile fs (fileOf c.params.storageRoot directory id side) := by
    intro side
    apply h.openFile_eq
    intro place hl
    rw [place_of_locate hl]
    exact hi side
  rw [load, load, files, files_eq]
  simp only [hopen]

/-- A file lies below the storage root exactly when the names below the root that lead up from it
come back down the same way, as they do when none of them is two dots. Where both files of a path
lie there, storing it leaves every file elsewhere as it was and makes none, however far it gets, and
loading it does not depend on what the files elsewhere hold. -/
theorem file_below_root_iff (c : Controller) (hroot : c.params.storageRoot ≠ "")
    (fs : FileSystem) (directory : String) :
    let root := placeFrom fs.working c.params.storageRoot
    (∀ filename,
      let way := namesBelow c.params.storageRoot directory filename
      (root <+: placeFrom fs.working (fileLocation c.params.storageRoot directory filename) ↔
        root.drop (root.length - (climb 0 [] way).1) <+: (climb 0 [] way).2) ∧
      (".." ∉ way →
        root <+: placeFrom fs.working (fileLocation c.params.storageRoot directory filename))) ∧
    (∀ id, (∀ side,
        root <+: placeFrom fs.working (fileOf c.params.storageRoot directory id side)) →
      (∀ sinks registry steps place bytes, ¬ root <+: place →
        ((Storing.run (c.files directory id) id sinks registry steps fs .lookUp).1.node? place =
          some (.file bytes) ↔ fs.node? place = some (.file bytes))) ∧
      (∀ fs', AgreeInside (root <+: ·) fs fs' →
        c.load fs' directory id = c.load fs directory id)) := by
  intro root
  have hiff : ∀ filename,
      root <+: placeFrom fs.working (fileLocation c.params.storageRoot directory filename) ↔
        root.drop (root.length -
          (climb 0 [] (namesBelow c.params.storageRoot directory filename)).1) <+:
            (climb 0 [] (namesBelow c.params.storageRoot directory filename)).2 := by
    intro filename
    rw [placeFrom_fileLocation hroot]
    exact isPrefix_follow_iff root _
  refine ⟨fun filename => ⟨hiff filename, fun hdots => ?_⟩, fun id hinside => ⟨?_, ?_⟩⟩
  · rw [hiff, climb_of_not_mem hdots, Nat.sub_zero, List.drop_length]
    exact List.nil_prefix
  · intro sinks registry steps place bytes hout
    apply stored_file_iff
    rintro side rfl
    exact hout (hinside side)
  · intro fs' hagree
    exact load_eq_of_agree c hagree hinside

theorem placeFrom_usd : placeFrom [] knowsOne.params.storageRoot = ["usd"] := by
  rw [show knowsOne.params.storageRoot = "/usd" from rfl]
  cbv

/-- Storing in a directory that leads nowhere up leaves a file beside the storage root as it was. -/
theorem file_below_device_root :
    let fs := (device []).set ["B"] (.file [])
    knowsOne.params.storageRoot ≠ "" ∧
      (∀ side, placeFrom fs.working knowsOne.params.storageRoot <+:
        placeFrom fs.working (fileOf knowsOne.params.storageRoot "d" "A" side)) ∧
      ∀ sinks registry steps bytes, (Storing.run (knowsOne.files "d" "A") "A" sinks registry steps
        fs .lookUp).1.node? ["B"] = some (.file bytes) ↔ fs.node? ["B"] = some (.file bytes) := by
  intro fs
  have hroot : knowsOne.params.storageRoot ≠ "" := by decide
  have hbelow : ∀ side, placeFrom fs.working knowsOne.params.storageRoot <+:
      placeFrom fs.working (fileOf knowsOne.params.storageRoot "d" "A" side) := by
    intro side
    have hplace : sharedPlace side = placeFrom fs.working (fileOf "/usd" "d" "A" side) :=
      place_of_locate (locate_device [(["B"], .file [])] side)
    change placeFrom [] knowsOne.params.storageRoot <+:
      placeFrom fs.working (fileOf "/usd" "d" "A" side)
    rw [placeFrom_usd, ← hplace]
    cases side <;> decide
  refine ⟨hroot, hbelow, fun sinks registry steps bytes => ?_⟩
  apply ((file_below_root_iff knowsOne hroot fs "d").2 "A" hbelow).1
  change ¬ placeFrom [] knowsOne.params.storageRoot <+: ["B"]
  rw [placeFrom_usd]
  decide

def besides (files : List (List String × Node)) : FileSystem :=
  { nodes := (["usd"], .directory) :: files }

theorem openFile_besides (files : List (List String × Node)) (side : Side)
    (h : (besides files).node? [lastName "A" side] ≠ some .directory) (next : Storing) :
    Storing.openFile (besides files) (fileOf "/usd" ".." "A" side) next =
      ((besides files).set [lastName "A" side] (.file []), next, []) := by
  have hparent : parent? (fileOf "/usd" ".." "A" side) = some "/usd/.." := by
    unfold fileOf
    cases side <;> cbv
  have hmade : (besides files).makeDirectories "/usd/.." = (.ok (), besides files) := by cbv
  have hplace : (besides files).locate (fileOf "/usd" ".." "A" side) = .ok [lastName "A" side] := by
    unfold fileOf
    cases side <;> cbv
  exact openFile_of_locate hparent hmade hplace h next

/-- A directory of two dots takes a path out of the storage root. -/
theorem climbing_directory_leaves_root :
    ∃ after notices, knowsOne.store (besides []) ".." "A" = (.ok (), after, notices) ∧
      (besides []).node? ["A.left.bin"] = none ∧
      after.node? ["A.left.bin"] = some (.file (encoding (twoSamples.side .left))) ∧
      ¬ placeFrom (besides []).working knowsOne.params.storageRoot <+: ["A.left.bin"] := by
  have hp : knowsOne.path? "A" = some twoSamples := rfl
  have hleft := openFile_besides [] .left (by decide) .createRight
  have hright := openFile_besides [(["A.left.bin"], .file [])] .right (by decide) .lookUpAgain
  have hstored := store_of_opened (c := knowsOne) hp (by decide) hleft hright
  obtain ⟨-, hholds⟩ := store_holds hp hstored
  obtain ⟨place, hl, hf⟩ := hholds .left
  refine ⟨_, _, hstored, by decide, ?_, ?_⟩
  · have hplace : place = ["A.left.bin"] := by
      rw [place_of_locate hl, write_working, write_working]
      change placeFrom [] (fileOf "/usd" ".." "A" .left) = ["A.left.bin"]
      unfold fileOf
      cbv
    rw [hplace] at hf
    exact hf
  · change ¬ placeFrom [] knowsOne.params.storageRoot <+: ["A.left.bin"]
    rw [placeFrom_usd]
    decide

end Controller

end SkidSteer
