import SkidSteer.Planning.CurvatureTable

namespace SkidSteer

namespace Waypoint

variable {α : Type} {waypoints : List (Waypoint α)} {segment : Nat} {start finish : Waypoint α}

/-- One waypoint follows another, which is numbered `segment`. -/
structure Neighbours (waypoints : List (Waypoint α)) (segment : Nat) (start finish : Waypoint α) :
    Prop where
  start : waypoints[segment]? = some start
  finish : waypoints[segment + 1]? = some finish

theorem neighbours_of_lt (h : segment + 1 < waypoints.length) :
    Neighbours waypoints segment waypoints[segment] waypoints[segment + 1] :=
  ⟨List.getElem?_eq_getElem _, List.getElem?_eq_getElem _⟩

/-- Of two waypoints or more each has a neighbour. -/
theorem exists_neighbours {w : Waypoint α} (hmany : 2 ≤ waypoints.length) (hw : w ∈ waypoints) :
    ∃ segment start finish, Neighbours waypoints segment start finish ∧
      (w = start ∨ w = finish) := by
  obtain ⟨i, hi, rfl⟩ := List.getElem_of_mem hw
  by_cases hlast : i + 1 < waypoints.length
  · exact ⟨i, _, _, neighbours_of_lt hlast, Or.inl rfl⟩
  · obtain ⟨before, rfl⟩ : ∃ before, i = before + 1 := ⟨i - 1, by omega⟩
    exact ⟨before, _, _, neighbours_of_lt hi, Or.inr rfl⟩

end Waypoint

namespace Spline

open Waypoint

variable {α : Type} [Scalar α] {segment : Nat} {start finish : Waypoint α}
  {waypoints : List (Waypoint α)} {spline : Spline α} {splines : List (Spline α)} {e : PlanError α}

/-- A curve that is fitted has the slopes of both headings over its chord, and that is one. -/
theorem eq_of_fit (h : fit segment start finish = .ok spline) : ¬spline.chord < shortestChord ∧
    spline =
      let dx := finish.x - start.x
      let dy := finish.y - start.y
      ofSlopes (Scalar.tan (Scalar.wrapAngle (start.heading - Scalar.atan2 dy dx)))
        (Scalar.tan (Scalar.wrapAngle (finish.heading - Scalar.atan2 dy dx)))
        (Scalar.sqrt (dx * dx + dy * dy)) := by
  unfold fit at h
  simp only at h
  split at h
  · cases h
  · rename_i hchord
    split at h
    · cases h
    · split at h
      · cases h
      · cases h
        exact ⟨hchord, rfl⟩

/-- A curve that is fitted spans no chord that counts as none. -/
theorem not_chord_lt_shortestChord (h : fit segment start finish = .ok spline) :
    ¬spline.chord < shortestChord :=
  (eq_of_fit h).1

theorem fitFrom_cons_eq_ok {rest : List (Waypoint α)} :
    fitFrom segment (start :: finish :: rest) = .ok splines ↔ ∃ spline later,
      fit segment start finish = .ok spline ∧
        fitFrom (segment + 1) (finish :: rest) = .ok later ∧ splines = spline :: later := by
  rw [fitFrom]
  constructor
  · intro h
    split at h
    · cases h
    · rename_i spline hfit
      split at h
      · cases h
      · rename_i later hrest
        cases h
        exact ⟨spline, later, hfit, hrest, rfl⟩
  · rintro ⟨spline, later, hfit, hrest, rfl⟩
    rw [hfit, hrest]

theorem fitFrom_cons_eq_error {rest : List (Waypoint α)} :
    fitFrom segment (start :: finish :: rest) = .error e ↔
      fit segment start finish = .error e ∨ ∃ spline, fit segment start finish = .ok spline ∧
        fitFrom (segment + 1) (finish :: rest) = .error e := by
  rw [fitFrom]
  constructor
  · intro h
    split at h
    · rename_i hfit
      cases h
      exact Or.inl hfit
    · rename_i spline hfit
      split at h
      · rename_i hrest
        cases h
        exact Or.inr ⟨spline, hfit, hrest⟩
      · cases h
  · rintro (hfit | ⟨spline, hfit, hrest⟩)
    · rw [hfit]
    · rw [hfit, hrest]

/-- There is one curve less than there are waypoints. -/
theorem length_fitFrom (h : fitFrom segment waypoints = .ok splines) :
    splines.length = waypoints.length - 1 := by
  induction waypoints generalizing segment splines with
  | nil =>
    cases h
    rfl
  | cons first rest ih =>
    cases rest with
    | nil =>
      cases h
      rfl
    | cons second rest =>
      obtain ⟨spline, later, -, hrest, rfl⟩ := fitFrom_cons_eq_ok.1 h
      rw [List.length_cons, ih hrest]
      rfl

theorem fit_of_neighbours (h : fitFrom segment waypoints = .ok splines) {i : Nat}
    (hn : Neighbours waypoints i start finish) :
    ∃ spline, splines[i]? = some spline ∧ fit (segment + i) start finish = .ok spline := by
  induction waypoints generalizing segment splines i with
  | nil => cases hn.start
  | cons first rest ih =>
    cases rest with
    | nil => cases hn.finish
    | cons second rest =>
      obtain ⟨spline, later, hfit, hrest, rfl⟩ := fitFrom_cons_eq_ok.1 h
      cases i with
      | zero =>
        cases hn.start
        cases hn.finish
        exact ⟨spline, rfl, hfit⟩
      | succ i =>
        have hcount : segment + (i + 1) = segment + 1 + i := by omega
        rw [hcount]
        exact ih hrest ⟨hn.start, hn.finish⟩

/-- Each curve is fitted between two neighbours. -/
theorem neighbours_of_getElem? (h : fitFrom segment waypoints = .ok splines) {i : Nat}
    (hs : splines[i]? = some spline) : ∃ start finish, Neighbours waypoints i start finish ∧
      fit (segment + i) start finish = .ok spline := by
  obtain ⟨hi, -⟩ := List.getElem?_eq_some_iff.1 hs
  have hlength := length_fitFrom h
  have hn : Neighbours waypoints i _ _ := neighbours_of_lt (by omega)
  obtain ⟨fitted, hfitted, hfit⟩ := fit_of_neighbours h hn
  obtain rfl := Option.some.inj (hfitted.symm.trans hs)
  exact ⟨_, _, hn, hfit⟩

theorem exists_fit_of_mem (h : fitFrom segment waypoints = .ok splines) :
    ∀ spline ∈ splines, ∃ number start finish, fit number start finish = .ok spline := by
  intro spline hs
  obtain ⟨i, hi⟩ := List.mem_iff_getElem?.1 hs
  obtain ⟨start, finish, -, hfit⟩ := neighbours_of_getElem? h hi
  exact ⟨_, start, finish, hfit⟩

/-- Two waypoints or more have a curve between them. -/
theorem ne_nil_of_fitAll (hw : 2 ≤ waypoints.length) (h : fitAll waypoints = .ok splines) :
    splines ≠ [] := by
  have hlength := length_fitFrom h
  rintro rfl
  rw [List.length_nil] at hlength
  omega

/-- The first two neighbours that have no curve say why there are none. -/
theorem fitFrom_eq_error_iff : fitFrom segment waypoints = .error e ↔
    ∃ i start finish, Neighbours waypoints i start finish ∧
      fit (segment + i) start finish = .error e ∧
      ∀ j < i, ∀ start finish, Neighbours waypoints j start finish →
        ∃ spline, fit (segment + j) start finish = .ok spline := by
  -- Induction on the waypoints, so that the fault of the first pair hides those of the later ones.
  induction waypoints generalizing segment with
  | nil => exact iff_of_false nofun fun ⟨i, _, _, hn, _⟩ => nomatch hn.start
  | cons first rest ih =>
    cases rest with
    | nil => exact iff_of_false nofun fun ⟨i, _, _, hn, _⟩ => nomatch hn.finish
    | cons second rest =>
      rw [fitFrom_cons_eq_error]
      constructor
      · rintro (hfit | ⟨spline, hfit, hrest⟩)
        · exact ⟨0, first, second, ⟨rfl, rfl⟩, hfit, fun j hj => absurd hj (Nat.not_lt_zero j)⟩
        · obtain ⟨i, start, finish, hn, he, hbefore⟩ := ih.1 hrest
          have hcount : ∀ j, segment + (j + 1) = segment + 1 + j := fun j => by omega
          refine ⟨i + 1, start, finish, ⟨hn.start, hn.finish⟩, by rwa [hcount], ?_⟩
          intro j hj start finish hn
          cases j with
          | zero =>
            cases hn.start
            cases hn.finish
            exact ⟨spline, hfit⟩
          | succ j =>
            rw [hcount]
            exact hbefore j (Nat.lt_of_succ_lt_succ hj) _ _ ⟨hn.start, hn.finish⟩
      · rintro ⟨i, start, finish, hn, he, hbefore⟩
        cases i with
        | zero =>
          cases hn.start
          cases hn.finish
          exact Or.inl he
        | succ i =>
          have hcount : ∀ j, segment + (j + 1) = segment + 1 + j := fun j => by omega
          obtain ⟨spline, hfit⟩ := hbefore 0 (Nat.succ_pos i) first second ⟨rfl, rfl⟩
          refine Or.inr ⟨spline, hfit, ih.2 ⟨i, start, finish, ⟨hn.start, hn.finish⟩, ?_, ?_⟩⟩
          · rwa [← hcount]
          · intro j hj start finish hn
            rw [← hcount]
            exact hbefore (j + 1) (Nat.succ_lt_succ hj) _ _ ⟨hn.start, hn.finish⟩

end Spline

namespace CurvatureTable

variable {α : Type} [Scalar α]

theorem length_push (marks : Array (Mark α)) (mark : Mark α) :
    length ⟨marks.push mark⟩ = mark.distance := by
  simp [length]

end CurvatureTable

end SkidSteer
