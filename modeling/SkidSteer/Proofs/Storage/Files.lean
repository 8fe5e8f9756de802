import SkidSteer.Proofs.Storage.Locations
import SkidSteer.Proofs.Registry

namespace SkidSteer.Storage

namespace FileSystem

variable {fs fs' fs'' : FileSystem} {touched other : List String → Prop}

theorem lookup_put (place here : List String) (node : Node) (nodes : List (List String × Node)) :
    (put place node nodes).lookup here =
      if here = place then some node else nodes.lookup here :=
  lookup_of_put (put place node) rfl (fun _ _ => rfl) nodes here

theorem node?_set_self {place : List String} (h : place ≠ []) (node : Node) :
    (fs.set place node).node? place = some node := by
  rw [node?, if_neg h, set, lookup_put, if_pos rfl]

theorem node?_set_of_ne {place here : List String} (h : here ≠ place) (node : Node) :
    (fs.set place node).node? here = fs.node? here := by
  rw [node?, set, lookup_put, if_neg h, node?]

/-- Directories stay directories and files stay files, with the bytes they had unless their place is
touched. What is new at a place that is not touched is a directory. -/
structure Spares (touched : List String → Prop) (fs fs' : FileSystem) : Prop where
  working : fs'.working = fs.working
  directory : ∀ place, fs.node? place = some .directory → fs'.node? place = some .directory
  file : ∀ place bytes, fs.node? place = some (.file bytes) →
    ∃ bytes', fs'.node? place = some (.file bytes') ∧ (¬touched place → bytes' = bytes)
  new : ∀ place, fs.node? place = none → ¬touched place →
    fs'.node? place = none ∨ fs'.node? place = some .directory

/-- At most directories are made. -/
abbrev SparesFiles (fs fs' : FileSystem) : Prop := Spares (fun _ => False) fs fs'

namespace Spares

theorem refl (touched : List String → Prop) (fs : FileSystem) : Spares touched fs fs :=
  ⟨rfl, fun _ h => h, fun _ bytes h => ⟨bytes, h, fun _ => rfl⟩, fun _ h _ => Or.inl h⟩

theorem mono (h : Spares touched fs fs') (hle : ∀ place, touched place → other place) :
    Spares other fs fs' := by
  refine ⟨h.working, h.directory, ?_, fun place hn hu => h.new place hn fun ht => hu (hle place ht)⟩
  intro place bytes hf
  obtain ⟨bytes', hf', hsame⟩ := h.file place bytes hf
  exact ⟨bytes', hf', fun hn => hsame fun ht => hn (hle place ht)⟩

theorem trans (h : Spares touched fs fs') (g : Spares touched fs' fs'') :
    Spares touched fs fs'' := by
  refine ⟨g.working.trans h.working, fun place hd => g.directory place (h.directory place hd), ?_,
    ?_⟩
  · intro place bytes hf
    obtain ⟨bytes', hf', hsame⟩ := h.file place bytes hf
    obtain ⟨bytes'', hf'', hsame'⟩ := g.file place bytes' hf'
    exact ⟨bytes'', hf'', fun hn => (hsame' hn).trans (hsame hn)⟩
  · intro place hn hu
    rcases h.new place hn hu with hn' | hd
    · exact g.new place hn' hu
    · exact Or.inr (g.directory place hd)

theorem set_directory {place : List String} (h : fs.node? place = none) :
    Spares touched fs (fs.set place .directory) := by
  have hplace : place ≠ [] := by
    rintro rfl
    cases h
  have hne : ∀ {here node'}, fs.node? here = some node' → here ≠ place := by
    rintro here node' hn rfl
    rw [h] at hn
    cases hn
  refine ⟨rfl, ?_, ?_, ?_⟩
  · intro here hd
    rw [node?_set_of_ne (hne hd), hd]
  · intro here bytes hf
    exact ⟨bytes, by rw [node?_set_of_ne (hne hf), hf], fun _ => rfl⟩
  · intro here hn _
    by_cases hat : here = place
    · subst hat
      exact Or.inr (node?_set_self hplace _)
    · exact Or.inl (by rw [node?_set_of_ne hat, hn])

theorem set_file {place : List String} (h : fs.node? place ≠ some .directory)
    (bytes : List UInt8) : Spares (· = place) fs (fs.set place (.file bytes)) := by
  have hplace : place ≠ [] := by
    rintro rfl
    exact h rfl
  refine ⟨rfl, ?_, ?_, ?_⟩
  · intro here hd
    have hne : here ≠ place := by
      rintro rfl
      exact h hd
    rw [node?_set_of_ne hne, hd]
  · intro here old hf
    by_cases hat : here = place
    · subst hat
      exact ⟨bytes, node?_set_self hplace _, fun hn => absurd rfl hn⟩
    · exact ⟨old, by rw [node?_set_of_ne hat, hf], fun _ => rfl⟩
  · intro here hn hat
    exact Or.inl (by rw [node?_set_of_ne hat, hn])

/-- The files that are not touched are the same, with the same bytes. -/
theorem file_iff (h : Spares touched fs fs') {place : List String} (hu : ¬touched place)
    (bytes : List UInt8) :
    fs'.node? place = some (.file bytes) ↔ fs.node? place = some (.file bytes) := by
  constructor
  · intro hf
    cases hn : fs.node? place with
    | none =>
      rcases h.new place hn hu with hn' | hd <;> simp_all
    | some node =>
      cases node with
      | directory => simp [h.directory place hn] at hf
      | file old =>
        obtain ⟨kept, hk, hsame⟩ := h.file place old hn
        rw [hk, hsame hu] at hf
        exact hf
  · intro hf
    obtain ⟨kept, hk, hsame⟩ := h.file place bytes hf
    rw [hk, hsame hu]

theorem walk (h : Spares touched fs fs') {place dest : List String} {way : List String}
    (hw : fs.walk place way = .ok dest) : fs'.walk place way = .ok dest := by
  induction way generalizing place with
  | nil => exact hw
  | cons name rest ih =>
    unfold FileSystem.walk at hw ⊢
    split
    · rename_i hdot
      rw [if_pos hdot] at hw
      exact ih hw
    · rename_i hdot
      rw [if_neg hdot] at hw
      split
      · rename_i hup
        rw [if_pos hup] at hw
        exact ih hw
      · rename_i hup
        rw [if_neg hup] at hw
        split
        · rename_i hlong
          rw [if_pos hlong] at hw
          cases hw
        · rename_i hlong
          rw [if_neg hlong] at hw
          split at hw
          · cases hw
          · cases hw
          · rename_i hd
            rw [h.directory _ hd]
            exact ih hw

end Spares

section Locate

variable {root directory id : String} {side : Side} {place : List String}

/-- A file lies in the directory that the way to it leads to. -/
theorem locate_fileOf :
    fs.locate (fileOf root directory id side) = .ok place ↔
      check (fileOf root directory id side) = .ok () ∧
        ¬longestName < (lastName id side).utf8ByteSize ∧
        ∃ dir, fs.walk (fs.start (fileOf root directory id side)) (directoriesOf root directory) =
          .ok dir ∧ place = dir ++ [lastName id side] := by
  obtain ⟨hdot, hup⟩ := lastName_ne_dots id side
  rw [locate, names_fileOf, List.dropLast_concat, List.getLast?_concat]
  rcases hc : check (fileOf root directory id side) with e | ⟨⟩
  · simp [bind, Except.bind]
  · rcases hw : fs.walk (fs.start (fileOf root directory id side))
        (directoriesOf root directory) with e | dir
    · simp [bind, Except.bind]
    · by_cases hlong : longestName < (lastName id side).utf8ByteSize
      · simp [bind, Except.bind, hlong]
      · simp [bind, Except.bind, hlong, pure, Except.pure, eq_comm]

theorem Spares.locate (h : Spares touched fs fs')
    (hl : fs.locate (fileOf root directory id side) = .ok place) :
    fs'.locate (fileOf root directory id side) = .ok place := by
  obtain ⟨hc, hn, dir, hw, hp⟩ := locate_fileOf.1 hl
  refine locate_fileOf.2 ⟨hc, hn, dir, ?_, hp⟩
  rw [start, h.working]
  exact h.walk hw

theorem place_ne_nil (hl : fs.locate (fileOf root directory id side) = .ok place) :
    place ≠ [] := by
  obtain ⟨-, -, dir, -, rfl⟩ := locate_fileOf.1 hl
  simp

/-- Files at one place have one last name. -/
theorem lastName_of_locate {directory' id' : String} {side' : Side}
    (hl : fs.locate (fileOf root directory id side) = .ok place)
    (hl' : fs.locate (fileOf root directory' id' side') = .ok place) :
    lastName id side = lastName id' side' := by
  obtain ⟨-, -, dir, -, rfl⟩ := locate_fileOf.1 hl
  obtain ⟨-, -, dir', -, he⟩ := locate_fileOf.1 hl'
  exact (List.append_singleton_inj.1 he).2

end Locate

theorem makeDirectory_spares {location : String} (h : fs.makeDirectory location = .ok fs') :
    Spares touched fs fs' := by
  unfold makeDirectory at h
  rcases hl : fs.locate location with e | place
  · rw [hl] at h
    cases h
  · rw [hl] at h
    simp only [bind, Except.bind] at h
    split at h
    · cases h
    · rename_i hnone
      cases h
      exact .set_directory hnone

theorem ensureDirectory_spares {location : String} (h : fs.ensureDirectory location = .ok fs') :
    Spares touched fs fs' := by
  unfold ensureDirectory at h
  split at h
  · rename_i made hm
    cases h
    exact makeDirectory_spares hm
  · split at h
    · cases h
      exact .refl _ _
    · cases h

theorem makeChain_spares (fs : FileSystem) (chain : List String) :
    Spares touched fs (fs.makeChain chain).2 := by
  induction chain with
  | nil => exact .refl _ _
  | cons location above ih =>
    unfold makeChain
    split
    · rename_i made hm
      exact makeDirectory_spares hm
    · split
      · rename_i e made hm
        rw [hm] at ih
        exact ih
      · rename_i made hm
        rw [hm] at ih
        split
        · rename_i ensured he
          exact ih.trans (ensureDirectory_spares he)
        · exact ih
    · split <;> exact .refl _ _

theorem create_eq_ok {location : String} (h : fs.create location = .ok fs') :
    ∃ place, fs.locate location = .ok place ∧ fs.node? place ≠ some .directory ∧
      fs' = fs.set place (.file []) := by
  unfold create at h
  rcases hl : fs.locate location with e | place
  · rw [hl] at h
    cases h
  · rw [hl] at h
    simp only [bind, Except.bind] at h
    split at h
    · cases h
    · split at h
      · cases h
      · rename_i hn
        cases h
        exact ⟨place, rfl, hn, rfl⟩

theorem write_working (fs : FileSystem) (location : String) (bytes : List UInt8) :
    (fs.write location bytes).working = fs.working := by
  unfold write
  split <;> rfl

def Holds (fs : FileSystem) (location : String) (bytes : List UInt8) : Prop :=
  ∃ place, fs.locate location = .ok place ∧ fs.node? place = some (.file bytes)

section Files

variable {root directory id : String} {side : Side} {bytes : List UInt8}

theorem Spares.holds (h : Spares touched fs fs')
    (hf : fs.Holds (fileOf root directory id side) bytes) :
    ∃ bytes', fs'.Holds (fileOf root directory id side) bytes' ∧
      ((∀ place, fs'.locate (fileOf root directory id side) = .ok place → ¬touched place) →
        bytes' = bytes) := by
  obtain ⟨place, hl, hn⟩ := hf
  obtain ⟨bytes', hn', hsame⟩ := h.file place bytes hn
  exact ⟨bytes', ⟨place, h.locate hl, hn'⟩, fun hu => hsame (hu place (h.locate hl))⟩

theorem create_spares {created : FileSystem}
    (h : fs.create (fileOf root directory id side) = .ok created) :
    Spares (fun place => created.locate (fileOf root directory id side) = .ok place) fs created ∧
      created.Holds (fileOf root directory id side) [] := by
  obtain ⟨place, hl, hn, rfl⟩ := create_eq_ok h
  have hset := Spares.set_file hn []
  refine ⟨hset.mono ?_, place, hset.locate hl, node?_set_self (place_ne_nil hl) _⟩
  rintro here rfl
  exact hset.locate hl

/-- Opening a file for writing leaves it empty, when it succeeds, and spares all others. -/
theorem createWithin_spares {result : Except IoKind Unit}
    (h : fs.createWithin (fileOf root directory id side) = (result, fs')) :
    Spares (fun place => fs'.locate (fileOf root directory id side) = .ok place) fs fs' ∧
      (result = .ok () ∧ fs'.Holds (fileOf root directory id side) [] ∨
        ∃ kind, result = .error kind ∧ SparesFiles fs fs') := by
  unfold createWithin at h
  split at h
  rename_i made between hm
  have hmade : ∀ touched, Spares touched fs between := by
    intro touched
    split at hm
    · rename_i above hp
      have hchain : Spares touched fs (fs.makeDirectories above).2 := makeChain_spares fs _
      rw [hm] at hchain
      exact hchain
    · cases hm
      exact .refl touched fs
  split at h
  · cases h
    exact ⟨hmade _, Or.inr ⟨_, rfl, hmade _⟩⟩
  · split at h
    · rename_i created hc
      cases h
      obtain ⟨hspares, hholds⟩ := create_spares hc
      exact ⟨(hmade _).trans hspares, Or.inl ⟨rfl, hholds⟩⟩
    · cases h
      exact ⟨hmade _, Or.inr ⟨_, rfl, hmade _⟩⟩

/-- A file in a directory that is there is opened for writing by emptying it, or making it. -/
theorem openFile_of_locate {above : String} {place : List String}
    (hparent : parent? (fileOf root directory id side) = some above)
    (hmade : fs.makeDirectories above = (.ok (), fs))
    (hl : fs.locate (fileOf root directory id side) = .ok place)
    (hn : fs.node? place ≠ some .directory) (next : Storing) :
    Storing.openFile fs (fileOf root directory id side) next =
      (fs.set place (.file []), next, []) := by
  have hcreate : fs.create (fileOf root directory id side) = .ok (fs.set place (.file [])) := by
    rw [create, hl]
    simp only [bind, Except.bind, endsInSeparator_fileOf]
    split
    · contradiction
    · rfl
  simp only [Storing.openFile, createWithin, hparent, hmade, hcreate]

/-- Writing to a file that is there spares all others. -/
theorem write_spares (hf : fs.Holds (fileOf root directory id side) bytes) (new : List UInt8) :
    Spares (fun place => fs.locate (fileOf root directory id side) = .ok place) fs
        (fs.write (fileOf root directory id side) new) ∧
      (fs.write (fileOf root directory id side) new).Holds (fileOf root directory id side) new := by
  obtain ⟨place, hl, hn⟩ := hf
  have hnot : fs.node? place ≠ some .directory := by
    rw [hn]
    nofun
  have hset := Spares.set_file hnot new
  rw [write, hl]
  refine ⟨hset.mono ?_, place, hset.locate hl, node?_set_self (place_ne_nil hl) _⟩
  rintro here rfl
  rfl

end Files

end FileSystem

end SkidSteer.Storage

namespace SkidSteer.Storing

open Storage FileSystem

variable {root directory id : String} {fs : FileSystem}

/-- What storing has touched so far is at the locations of the two files. -/
def Touches (root directory id : String) (fs : FileSystem) (place : List String) : Prop :=
  ∃ side, fs.locate (fileOf root directory id side) = .ok place

/-- Storing has opened the files that it is past. -/
def Opened (root directory id : String) (fs : FileSystem) : Storing → Prop
  | .createRight => ∃ bytes, fs.Holds (fileOf root directory id .left) bytes
  | .lookUpAgain | .write _ => ∀ side, ∃ bytes, fs.Holds (fileOf root directory id side) bytes
  | _ => True

theorem Touches.later {touched : List String → Prop} {fs' : FileSystem}
    (h : Spares touched fs fs') {place : List String} (ht : Touches root directory id fs place) :
    Touches root directory id fs' place := by
  obtain ⟨side, hl⟩ := ht
  exact ⟨side, h.locate hl⟩

theorem openFile_spares (root directory id : String) (fs : FileSystem) (side : Side)
    (next : Storing) :
    ∃ after stage notices,
      openFile fs (fileOf root directory id side) next = (after, stage, notices) ∧
      Spares (fun place => after.locate (fileOf root directory id side) = .ok place) fs after ∧
      (stage = next ∧ after.Holds (fileOf root directory id side) [] ∨
        ∃ e, stage = .done (.error e) ∧ SparesFiles fs after) := by
  rcases hc : fs.createWithin (fileOf root directory id side) with ⟨result, after⟩
  obtain ⟨hspares, hresult⟩ := createWithin_spares hc
  rcases hresult with ⟨rfl, hholds⟩ | ⟨kind, rfl, hnone⟩
  · exact ⟨after, next, [], by rw [openFile, hc], hspares, Or.inl ⟨rfl, hholds⟩⟩
  · exact ⟨after, _, _, by rw [openFile, hc], hspares, Or.inr ⟨_, rfl, hnone⟩⟩

/-- The two files are written one after the other, and neither is the other. -/
theorem writes_hold {left right : List UInt8}
    (hleft : fs.Holds (fileOf root directory id .left) left)
    (hright : fs.Holds (fileOf root directory id .right) right) (newLeft newRight : List UInt8) :
    let after := (fs.write (fileOf root directory id .left) newLeft).write
      (fileOf root directory id .right) newRight
    Spares (Touches root directory id after) fs after ∧
      after.Holds (fileOf root directory id .left) newLeft ∧
      after.Holds (fileOf root directory id .right) newRight := by
  intro after
  obtain ⟨hfirst, hholds⟩ := write_spares hleft newLeft
  obtain ⟨between, hbetween, -⟩ := hfirst.holds hright
  obtain ⟨hsecond, hlast⟩ := write_spares hbetween newRight
  obtain ⟨kept, hkept, hsame⟩ := hsecond.holds hholds
  refine ⟨Spares.trans (hfirst.mono ?_) (hsecond.mono ?_), ?_, hlast⟩
  · exact fun place hl => ⟨.left, hsecond.locate (hfirst.locate hl)⟩
  · exact fun place hl => ⟨.right, hsecond.locate hl⟩
  · rw [← hsame ?_]
    · exact hkept
    · intro place hl ht
      have hnames := lastName_of_locate hl (hsecond.locate ht)
      cases (lastName_inj hnames).2

/-- One step of storing touches only the two files, and keeps those it has opened. -/
theorem step_spares (sinks : Sink × Sink) (registry : Registry) {stage : Storing}
    (h : Opened root directory id fs stage) :
    ∃ after next notices,
      stage.step (PathFiles.of root directory id) id sinks registry fs = (after, next, notices) ∧
      Spares (Touches root directory id after) fs after ∧ Opened root directory id after next := by
  rw [files_eq]
  cases stage with
  | lookUp =>
    by_cases hk : registry.contains id
    · exact ⟨fs, .createLeft, [], by rw [step, if_pos hk], .refl _ _, trivial⟩
    · exact ⟨fs, .done (.ok ()), [.nothingToStore id], by rw [step, if_neg hk], .refl _ _, trivial⟩
  | createLeft =>
    obtain ⟨after, stage, notices, ho, hspares, hstage⟩ :=
      openFile_spares root directory id fs .left .createRight
    refine ⟨after, stage, notices, ho, hspares.mono fun place hl => ⟨.left, hl⟩, ?_⟩
    rcases hstage with ⟨rfl, hholds⟩ | ⟨e, rfl, -⟩
    · exact ⟨[], hholds⟩
    · trivial
  | createRight =>
    obtain ⟨left, hleft⟩ := h
    obtain ⟨after, stage, notices, ho, hspares, hstage⟩ :=
      openFile_spares root directory id fs .right .lookUpAgain
    refine ⟨after, stage, notices, ho, hspares.mono fun place hl => ⟨.right, hl⟩, ?_⟩
    rcases hstage with ⟨rfl, hholds⟩ | ⟨e, rfl, -⟩
    -- Opening the right file spares the left one, whose place is another.
    · intro side
      cases side with
      | left =>
        obtain ⟨bytes, hkept, -⟩ := hspares.holds hleft
        exact ⟨bytes, hkept⟩
      | right => exact ⟨[], hholds⟩
    · trivial
  | lookUpAgain =>
    cases hg : registry.get? id with
    | some path => exact ⟨fs, .write path, [], by rw [step, hg], .refl _ _, h⟩
    | none => exact ⟨fs, .done (.ok ()), [.nothingToStore id], by rw [step, hg], .refl _ _, trivial⟩
  | write path =>
    obtain ⟨left, hleft⟩ := h .left
    obtain ⟨right, hright⟩ := h .right
    rcases he : encode path sinks.1 sinks.2 with ⟨result, l, r⟩
    obtain ⟨hspares, -⟩ := writes_hold hleft hright l.accepted.toList r.accepted.toList
    cases result with
    | ok =>
      exact ⟨_, .done (.ok ()), [.stored id path.size], by simp only [step, he], hspares, trivial⟩
    | error e => exact ⟨_, .done (.error e), [], by simp only [step, he], hspares, trivial⟩
  | done result => exact ⟨fs, .done result, [], rfl, .refl _ _, trivial⟩

/-- Storing, however far it gets, touches only the two files. -/
theorem run_spares (sinks : Sink × Sink) (registry : Registry) (steps : Nat) {stage : Storing}
    (h : Opened root directory id fs stage) :
    let after := (run (PathFiles.of root directory id) id sinks registry steps fs stage).1
    Spares (Touches root directory id after) fs after := by
  induction steps generalizing fs stage with
  | zero => exact .refl _ _
  | succ more ih =>
    obtain ⟨between, next, notices, hs, hfirst, hopened⟩ := step_spares sinks registry h
    have hrest := ih hopened
    simp only [run, hs]
    exact (hfirst.mono fun place ht => ht.later hrest).trans hrest

end SkidSteer.Storing
