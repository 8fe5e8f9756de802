import SkidSteer.Proofs.Storage.Interrupted

namespace SkidSteer

open Storage FileSystem

variable {directory id : String} {c : Controller} {fs before after : FileSystem} {path : Path}

namespace Storage.FileSystem

def Decodes (fs : FileSystem) (root directory id : String) (path : Path) : Prop :=
  ∃ bytes : Side → List UInt8,
    (∀ side, fs.node? (placeFrom fs.working (fileOf root directory id side)) =
      some (.file (bytes side))) ∧
    (decode (.ofBytes (bytes .left)) (.ofBytes (bytes .right))).1 = .ok path

theorem Stored.decodes {root : String} (h : fs.Stored root directory id (some path)) :
    fs.Decodes root directory id path := by
  obtain ⟨hfew, -, hfiles⟩ := h
  have hdecodes := (decodes_encodings hfew [] []).of_ends
    (l := .ofBytes (encoding (path.side .left))) (r := .ofBytes (encoding (path.side .right)))
    (List.append_nil _).symm (List.append_nil _).symm rfl rfl
  exact ⟨fun side => encoding (path.side side), hfiles, hdecodes⟩

theorem not_decodes_of_empty {root : String}
    (h : ∀ side, fs.node? (placeFrom fs.working (fileOf root directory id side)) =
      some (.file [])) : ¬fs.Decodes root directory id path := by
  rintro ⟨bytes, hfiles, hd⟩
  have hempty : bytes .left = [] := by
    have hsame := hfiles .left
    rw [h .left] at hsame
    exact (Node.file.inj (Option.some.inj hsame)).symm
  rcases hr : decode (.ofBytes (bytes .left)) (.ofBytes (bytes .right)) with ⟨result, s, t⟩
  rw [hr] at hd
  obtain rfl : result = .ok path := hd
  obtain ⟨n, hleft, -⟩ := (decodes_iff rfl rfl).1 ⟨path, s, t, hr⟩
  rw [hempty] at hleft
  exact not_complete_nil n hleft

end Storage.FileSystem

theorem Storing.step_working (root directory id : String) (sinks : Sink × Sink)
    (registry : Registry) (fs : FileSystem) (stage : Storing) :
    (stage.step (.of root directory id) id sinks registry fs).1.working = fs.working := by
  rw [files_eq]
  cases stage with
  | lookUp =>
    rw [step]
    split <;> rfl
  | createLeft =>
    obtain ⟨_, _, _, ho, hspares, -⟩ := openFile_spares root directory id fs .left .createRight
    rw [step, ho]
    exact hspares.working
  | createRight =>
    obtain ⟨_, _, _, ho, hspares, -⟩ := openFile_spares root directory id fs .right .lookUpAgain
    rw [step, ho]
    exact hspares.working
  | lookUpAgain =>
    rw [step]
    split <;> rfl
  | write path =>
    rw [step]
    rcases encode path sinks.1 sinks.2 with ⟨e | ⟨⟩, l, r⟩ <;> exact
      (write_working _ _ _).trans (write_working _ _ _)
  | done result => rfl

namespace Controller

/-- Storing a path step by step. Before each step others do what they like. -/
def storeBeside (directory id : String) :
    Controller → List (List Action) → FileSystem × Storing → FileSystem × Storing
  | _, [], state => state
  | c, others :: rest, (fs, stage) =>
    let now := c.after others
    let (fs, stage, _) := stage.step (now.files directory id) id (.unlimited, .unlimited)
      now.shared.registry fs
    storeBeside directory id now rest (fs, stage)

/-- What a look finds, with what others have done before it. -/
def found (c : Controller) (id : String) (others : List (List Action)) (look : Nat) : Option Path :=
  (c.after (others.take look).flatten).path? id

theorem found_append (c : Controller) (id : String) {past : List (List Action)} {look : Nat}
    (h : look ≤ past.length) (later : List (List Action)) :
    c.found id (past ++ later) look = c.found id past look := by
  rw [found, List.take_append_of_le_length h, found]

theorem found_length (c : Controller) (id : String) (past : List (List Action)) {look : Nat}
    (h : past.length = look) : c.found id past look = (c.after past.flatten).path? id := by
  rw [found, List.take_of_length_le (Nat.le_of_eq h)]

theorem storeBeside_cons {root : String} (hroot : c.params.storageRoot = root)
    {others : List Action} {stage next : Storing} {notices : List Notice}
    (hs : stage.step (.of root directory id) id (.unlimited, .unlimited)
      (c.after others).shared.registry fs = (after, next, notices)) (rest : List (List Action)) :
    storeBeside directory id c (others :: rest) (fs, stage) =
      storeBeside directory id (c.after others) rest (after, next) := by
  rw [storeBeside, files, after_params, hroot, hs]

theorem storeBeside_working (c : Controller) (directory id : String) (others : List (List Action))
    (state : FileSystem × Storing) :
    (storeBeside directory id c others state).1.working = state.1.working := by
  induction others generalizing c state with
  | nil => rfl
  | cons first rest ih =>
    exact (ih _ _).trans (Storing.step_working _ directory id _ _ state.1 state.2)

/-- What storing comes to when it succeeds, by what its two looks have found. -/
inductive Outcome (c : Controller) (directory id : String) (past : List (List Action))
    (before after : FileSystem) : Prop where
  | unknown (looked : 1 ≤ past.length) (first : c.found id past 1 = none) (same : after = before)
  | stored (path : Path) (looked : 4 ≤ past.length) (first : c.found id past 1 ≠ none)
      (second : c.found id past 4 = some path)
      (whole : after.Whole c.params.storageRoot directory id path)
  | emptied (looked : 4 ≤ past.length) (first : c.found id past 1 ≠ none)
      (second : c.found id past 4 = none)
      (empty : ∀ side, after.Holds (fileOf c.params.storageRoot directory id side) [])

/-- What storing has found, and made of the files, up to one of its steps. -/
def Beside (c : Controller) (directory id : String) (past : List (List Action))
    (before after : FileSystem) : Storing → Prop
  | .lookUp => past.length = 0 ∧ after = before
  | .createLeft => past.length = 1 ∧ c.found id past 1 ≠ none
  | .createRight => past.length = 2 ∧ c.found id past 1 ≠ none ∧
      after.Holds (fileOf c.params.storageRoot directory id .left) []
  | .lookUpAgain => past.length = 3 ∧ c.found id past 1 ≠ none ∧
      ∀ side, after.Holds (fileOf c.params.storageRoot directory id side) []
  | .write path => past.length = 4 ∧ c.found id past 1 ≠ none ∧ c.found id past 4 = some path ∧
      ∀ side, after.Holds (fileOf c.params.storageRoot directory id side) []
  | .done (.ok ()) => Outcome c directory id past before after
  | .done (.error _) => True

theorem Outcome.later {past : List (List Action)} (h : Outcome c directory id past before after)
    (later : List (List Action)) : Outcome c directory id (past ++ later) before after := by
  have hlength : past.length ≤ (past ++ later).length := by
    rw [List.length_append]
    omega
  cases h with
  | unknown looked first same =>
    exact .unknown (looked.trans hlength) ((found_append _ _ looked later).trans first) same
  | stored path looked first second whole =>
    refine .stored path (looked.trans hlength) ?_ ((found_append _ _ looked later).trans second)
      whole
    rwa [found_append _ _ (by omega)]
  | emptied looked first second empty =>
    refine .emptied (looked.trans hlength) ?_ ((found_append _ _ looked later).trans second) empty
    rwa [found_append _ _ (by omega)]

theorem Beside.step {past : List (List Action)} {stage : Storing}
    (h : Beside c directory id past before fs stage) (others : List Action) {next : Storing}
    {notices : List Notice}
    (hs : stage.step (.of c.params.storageRoot directory id) id (.unlimited, .unlimited)
      (c.after (past ++ [others]).flatten).shared.registry fs = (after, next, notices)) :
    Beside c directory id (past ++ [others]) before after next := by
  have hlength : (past ++ [others]).length = past.length + 1 := List.length_append
  have hfirst : 1 ≤ past.length → c.found id past 1 ≠ none →
      c.found id (past ++ [others]) 1 ≠ none := by
    intro hle hn
    rwa [found_append _ _ hle]
  cases stage with
  | lookUp =>
    obtain ⟨hpast, rfl⟩ := h
    have hfound := c.found_length id (past ++ [others]) (by omega : _ = 1)
    rw [Storing.step] at hs
    split at hs
    · rename_i hk
      cases hs
      refine ⟨by omega, ?_⟩
      rw [hfound]
      exact Option.isSome_iff_ne_none.1 hk
    · rename_i hk
      cases hs
      refine .unknown (by omega) ?_ rfl
      rw [hfound]
      exact Option.not_isSome_iff_eq_none.1 hk
  | createLeft =>
    obtain ⟨hpast, hknown⟩ := h
    obtain ⟨_, _, _, ho, -, hstage⟩ :=
      Storing.openFile_spares c.params.storageRoot directory id fs .left .createRight
    rw [files_eq, Storing.step, ho] at hs
    cases hs
    rcases hstage with ⟨rfl, hholds⟩ | ⟨e, rfl, -⟩
    · exact ⟨by omega, hfirst (by omega) hknown, hholds⟩
    · trivial
  | createRight =>
    obtain ⟨hpast, hknown, hleft⟩ := h
    rcases Storing.createRight_holds hleft hs with ⟨rfl, hempty⟩ | ⟨e, rfl, -⟩
    · exact ⟨by omega, hfirst (by omega) hknown, hempty⟩
    · trivial
  | lookUpAgain =>
    obtain ⟨hpast, hknown, hempty⟩ := h
    have hfound := c.found_length id (past ++ [others]) (by omega : _ = 4)
    rw [Storing.step] at hs
    split at hs
    · rename_i path hp
      cases hs
      exact ⟨by omega, hfirst (by omega) hknown, hfound.trans hp, hempty⟩
    · rename_i hp
      cases hs
      exact .emptied (by omega) (hfirst (by omega) hknown) (hfound.trans hp) hempty
  -- The files are as the second look left them, since other callers touch none.
  | write path =>
    obtain ⟨hpast, hknown, hpath, hempty⟩ := h
    have hleaves := Storing.leaves_write before path hempty (.unlimited, .unlimited) rfl rfl hs
    have hdone := Storing.left_step (.of c.params.storageRoot directory id) id
      (.unlimited, .unlimited) (c.after (past ++ [others]).flatten).shared.registry fs (.write path)
    rw [hs] at hdone
    cases next with
    | done result =>
      cases result with
      | ok =>
        have hwhole : after.Whole c.params.storageRoot directory id path := hleaves
        refine .stored path (by omega) (hfirst (by omega) hknown) ?_ hwhole
        rwa [found_append _ _ (by omega)]
      | error e => trivial
    | _ => cases hdone
  | done result =>
    cases hs
    cases result with
    | ok => exact h.later [others]
    | error e => trivial

theorem Beside.run {past : List (List Action)} {stage : Storing}
    (h : Beside c directory id past before fs stage) (others : List (List Action)) :
    Beside c directory id (past ++ others) before
      (storeBeside directory id (c.after past.flatten) others (fs, stage)).1
      (storeBeside directory id (c.after past.flatten) others (fs, stage)).2 := by
  induction others generalizing past fs stage with
  | nil =>
    rw [List.append_nil]
    exact h
  | cons first rest ih =>
    have hnow : (c.after past.flatten).after first = c.after (past ++ [first]).flatten := by
      rw [List.flatten_append, List.flatten_singleton, after_append]
    rcases hs : stage.step (.of c.params.storageRoot directory id) id (.unlimited, .unlimited)
      (c.after (past ++ [first]).flatten).shared.registry fs with ⟨after, next, notices⟩
    have hrest := ih (h.step first hs)
    have hroot : (c.after past.flatten).params.storageRoot = c.params.storageRoot :=
      congrArg Params.storageRoot after_params
    rw [← hnow] at hs hrest
    rw [List.append_cons, storeBeside_cons hroot hs]
    exact hrest

/-- Storing that succeeds leaves both files as they were, or in them a path that was registered
under the id meanwhile, unless its first look finds a path that is gone at its second look. The
files are then empty. -/
theorem store_beside_others_iff (params : Params Float) (converter : Converter Float)
    (chassis : Drivetrain) (actions : List Action) {fs after : FileSystem} {directory id : String}
    {others : List (List Action)}
    (hs : storeBeside directory id ((fresh params converter chassis).after actions) others
      (fs, .lookUp) = (after, .done (.ok ()))) :
    let c := (fresh params converter chassis).after actions
    let place := fun side => placeFrom fs.working (fileOf params.storageRoot directory id side)
    (c.found id others 1 = none → after = fs) ∧
    (c.found id others 1 ≠ none → ∀ path, c.found id others 4 = some path →
      after.Stored params.storageRoot directory id (some path)) ∧
    (c.found id others 1 ≠ none → c.found id others 4 = none →
      ∀ side, after.node? (place side) = some (.file [])) ∧
    (((∀ side, after.node? (place side) = fs.node? (place side)) ∨
        ∃ front path, front <+: others.flatten ∧ (c.after front).path? id = some path ∧
          after.Decodes params.storageRoot directory id path) ↔
      (c.found id others 1 ≠ none → c.found id others 4 = none →
        ∀ side, fs.node? (place side) = some (.file []))) := by
  intro c place
  have hroot : c.params.storageRoot = params.storageRoot :=
    congrArg Params.storageRoot after_params
  have hstart : Beside c directory id [] fs fs .lookUp := ⟨rfl, rfl⟩
  have hend := hstart.run others
  have hworking := c.storeBeside_working directory id others (fs, .lookUp)
  change Beside c directory id others fs (storeBeside directory id c others (fs, .lookUp)).1
    (storeBeside directory id c others (fs, .lookUp)).2 at hend
  rw [hs] at hend hworking
  have houtcome : Outcome c directory id others fs after := hend
  clear hend hstart hs
  cases houtcome with
  | unknown looked first same =>
    refine ⟨fun _ => same, fun hn => absurd first hn, fun hn => absurd first hn, ?_⟩
    refine iff_of_true (Or.inl fun side => ?_) fun hn => absurd first hn
    rw [same]
  | stored path looked first second whole =>
    have hnonempty : path.isEmpty = false := by
      have hfound : (c.after (others.take 4).flatten).path? id = some path := second
      rw [show c.after _ = (fresh params converter chassis).after (actions ++ _) from
        after_append.symm] at hfound
      exact isEmpty_of_path? hfound
    have hstored : after.Stored params.storageRoot directory id (some path) :=
      (hroot ▸ whole).stored hnonempty
    refine ⟨fun hn => absurd hn first, ?_, fun _ hn => ?_, ?_⟩
    · intro _ path' hp
      rw [second] at hp
      cases hp
      exact hstored
    · rw [second] at hn
      cases hn
    · refine iff_of_true (Or.inr ⟨_, path, ?_, second, hstored.decodes⟩) fun _ hn => ?_
      · refine ⟨(others.drop 4).flatten, ?_⟩
        rw [← List.flatten_append, List.take_append_drop]
      · rw [second] at hn
        cases hn
  | emptied looked first second empty =>
    have hempty : ∀ side, after.node? (place side) = some (.file []) := by
      intro side
      have hnode := node?_of_holds (empty side)
      rw [hworking, hroot] at hnode
      exact hnode
    refine ⟨fun hn => absurd hn first, fun _ path hp => ?_, fun _ _ => hempty, ?_⟩
    · rw [second] at hp
      cases hp
    · constructor
      · rintro (hsame | ⟨front, path, -, -, hdecodes⟩) - - side
        · rw [← hsame side]
          exact hempty side
        · refine absurd hdecodes (not_decodes_of_empty fun side => ?_)
          rw [hworking]
          exact hempty side
      · intro hbefore
        refine Or.inl fun side => ?_
        rw [hempty side, hbefore first second side]

def openedOver (files : List (List String × Node)) : List (List String × Node) :=
  put (sharedPlace .right) (.file []) (put (sharedPlace .left) (.file []) files)

/-- On the device, both files are empty at the second look. -/
theorem storeBeside_device (hroot : c.params.storageRoot = "/usd") {first : List Action}
    (hfirst : (c.after first).path? "A" ≠ none) (left right : List Action)
    (rest : List (List Action)) {held : List (List String × Node)}
    (hheld : ∀ side, (device held).node? (sharedPlace side) ≠ some .directory) :
    storeBeside "d" "A" c (first :: left :: right :: rest) (device held, .lookUp) =
      storeBeside "d" "A" (((c.after first).after left).after right) rest
        (device (openedOver held), .lookUpAgain) := by
  have hroots : ∀ actions, (c.after actions).params.storageRoot = "/usd" := by
    intro actions
    rw [after_params, hroot]
  have hlook : Storing.lookUp.step (.of "/usd" "d" "A") "A" (.unlimited, .unlimited)
      (c.after first).shared.registry (device held) = (device held, .createLeft, []) := by
    rw [Storing.step, if_pos]
    exact Option.isSome_iff_ne_none.2 hfirst
  have hleft : Storing.createLeft.step (.of "/usd" "d" "A") "A" (.unlimited, .unlimited)
      ((c.after first).after left).shared.registry (device held) =
        (device (put (sharedPlace .left) (.file []) held), .createRight, []) := by
    rw [files_eq]
    exact openFile_device (hheld .left) .createRight
  have hright : Storing.createRight.step (.of "/usd" "d" "A") "A" (.unlimited, .unlimited)
      (((c.after first).after left).after right).shared.registry
      (device (put (sharedPlace .left) (.file []) held)) =
        (device (openedOver held), .lookUpAgain, []) := by
    have hother : (device (put (sharedPlace .left) (.file []) held)).node? (sharedPlace .right) ≠
        some .directory := by
      rw [← set_device, node?_set_of_ne (by decide)]
      exact hheld .right
    rw [files_eq]
    exact openFile_device hother .lookUpAgain
  rw [storeBeside_cons hroot hlook, storeBeside_cons (hroots first) hleft,
    storeBeside_cons (by rw [← after_append]; exact hroots _) hright]

/-- A path that is replaced between the looks is stored as it is then. -/
theorem replaced_path_is_stored :
    let replaces := [Action.request (.register "A" oneSample)]
    let stored := device (storedOver [] oneSample)
    storeBeside "d" "A" knowsOne [[], [], [], replaces, []] (device [], .lookUp) =
        (stored, .done (.ok ())) ∧
      knowsOne.found "A" [[], [], [], replaces, []] 1 ≠ none ∧
      knowsOne.found "A" [[], [], [], replaces, []] 4 = some oneSample ∧
      stored.Stored "/usd" "d" "A" (some oneSample) := by
  intro replaces stored
  have hfree : ∀ side, (device []).node? (sharedPlace side) ≠ some .directory := by
    intro side
    cases side <;> decide
  have hfirst : knowsOne.found "A" [[], [], [], replaces, []] 1 ≠ none := nofun
  have hs : storeBeside "d" "A" knowsOne [[], [], [], replaces, []] (device [], .lookUp) =
      (stored, .done (.ok ())) := by
    have hopened : storeBeside "d" "A" knowsOne [[], [], [], replaces, []] (device [], .lookUp) =
        storeBeside "d" "A" knowsOne [replaces, []] (device (openedOver []), .lookUpAgain) :=
      storeBeside_device rfl hfirst [] [] _ hfree
    have hlook : Storing.lookUpAgain.step (.of "/usd" "d" "A") "A" (.unlimited, .unlimited)
        (knowsOne.after replaces).shared.registry (device (openedOver [])) =
          (device (openedOver []), .write oneSample, []) := rfl
    have hwrite : (Storing.write oneSample).step (.of "/usd" "d" "A") "A" (.unlimited, .unlimited)
        ((knowsOne.after replaces).after []).shared.registry (device (openedOver [])) =
          (stored, .done (.ok ()), [.stored "A" 1]) := by
      rw [Storing.step_write (by decide), write_device, write_device]
      rfl
    have hlast := storeBeside_cons (c := knowsOne) rfl hlook [[]]
    have hend := storeBeside_cons (c := knowsOne.after replaces) rfl hwrite []
    rw [hopened, hlast, hend]
    rfl
  exact ⟨hs, hfirst, rfl, (store_beside_others_iff (.ofGeometry ⟨1.0, 1.0, 1.0⟩ ⟨1.0, 1.0⟩ 1.0)
    ⟨.linear, 1.0, 1.0, 1.0⟩ (.ofLimit 1.0) [.request (.register "A" twoSamples)] hs).2.1 hfirst
    oneSample rfl⟩

/-- A path that is removed between the looks leaves both its files empty. -/
theorem removal_between_looks_empties_files :
    let removes := [Action.request (.remove "A")]
    let fs := device (storedOver [] twoSamples)
    let emptied := device (openedOver (storedOver [] twoSamples))
    fs.Stored "/usd" "d" "A" (some twoSamples) ∧
      storeBeside "d" "A" knowsOne [[], [], [], removes, []] (fs, .lookUp) =
        (emptied, .done (.ok ())) ∧
      (∀ side, emptied.node? (placeFrom fs.working (fileOf "/usd" "d" "A" side)) ≠
        fs.node? (placeFrom fs.working (fileOf "/usd" "d" "A" side))) ∧
      ¬∃ front path, front <+: [[], [], [], removes, []].flatten ∧
        (knowsOne.after front).path? "A" = some path ∧ emptied.Decodes "/usd" "d" "A" path := by
  intro removes fs emptied
  have hplace : ∀ side, placeFrom fs.working (fileOf "/usd" "d" "A" side) = sharedPlace side :=
    fun side => (place_of_locate (locate_device (storedOver [] twoSamples) side)).symm
  have hfree : ∀ side, fs.node? (sharedPlace side) ≠ some .directory := by
    intro side
    cases side <;> nofun
  have hempty : ∀ side, emptied.node? (sharedPlace side) = some (.file []) := by
    intro side
    cases side <;> rfl
  refine ⟨⟨by decide, rfl, fun side => ?_⟩, ?_, fun side => ?_, ?_⟩
  · rw [hplace]
    cases side <;> rfl
  · have hlook : Storing.lookUpAgain.step (.of "/usd" "d" "A") "A" (.unlimited, .unlimited)
        (knowsOne.after removes).shared.registry emptied =
          (emptied, .done (.ok ()), [.nothingToStore "A"]) := rfl
    have hknown : (knowsOne.after []).path? "A" ≠ none := nofun
    have hopened : storeBeside "d" "A" knowsOne [[], [], [], removes, []] (fs, .lookUp) =
        storeBeside "d" "A" knowsOne [removes, []] (emptied, .lookUpAgain) :=
      storeBeside_device rfl hknown [] [] _ hfree
    have hlast := storeBeside_cons (c := knowsOne) rfl hlook [[]]
    rw [hopened, hlast]
    rfl
  · rw [hplace, hempty]
    cases side <;> nofun
  · rintro ⟨front, path, -, -, hdecodes⟩
    refine not_decodes_of_empty (fun side => ?_) hdecodes
    rw [← place_of_locate (locate_device (openedOver (storedOver [] twoSamples)) side)]
    exact hempty side

end Controller

end SkidSteer
