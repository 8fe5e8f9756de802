import SkidSteer.Proofs.Planning.Table
import SkidSteer.Proofs.Planning.Travel

namespace SkidSteer

/-- At all times the chassis is between the start of its path and the end. -/
theorem VelocityProfile.distance_mem {limits : Limits ℝ} {distance t : ℝ} (hd : 0 < distance)
    (hv : limits.isValid = true) (ht : 0 ≤ t) :
    0 ≤ ((ofDistance distance limits).motionAt t).distance ∧
      ((ofDistance distance limits).motionAt t).distance ≤ distance := by
  have h := covers_ofDistance hd hv
  have hstart := (h.travel le_rfl ht).1
  have hend := (h.travel ht (le_max_left t (ofDistance distance limits).duration)).1
  rw [motionAt_zero hd hv] at hstart
  rw [h.motionAt_of_ge (le_max_right _ _)] at hend
  exact ⟨by linarith, by linarith⟩

namespace CurvatureTable

section Search

variable {α : Type} [Scalar α] {marks : Array (Mark α)} {distance : α}

/-- Where the marks before a distance come first, halving finds the end of them. -/
theorem findFrom_eq {cut : Nat}
    (hcut : ∀ (i : Nat) (h : i < marks.size), marks[i].distance < distance ↔ i < cut)
    {low high : Nat} (within : high ≤ marks.size) (hlow : low ≤ cut) (hhigh : cut ≤ high) :
    findFrom marks distance low high within = cut := by
  fun_induction findFrom marks distance low high within with
  | case1 low high within below inside before ih =>
    exact ih ((hcut _ inside).1 before) hhigh
  | case2 low high within below inside after ih =>
    exact ih hlow (Nat.le_of_not_lt (mt (hcut _ inside).2 after))
  | case3 low high within done => omega

end Search

/-- How far along a curve its first so many steps of a width lead. -/
noncomputable def reach (spline : Spline ℝ) (width : ℝ) (steps : Nat) : ℝ :=
  ∑ i ∈ Finset.range steps, stretch (spline.slope ((i + 0.5) * width)) * width

/-- The mark at a step of a curve that begins at this distance. -/
noncomputable def markAt (start : ℝ) (spline : Spline ℝ) (width : ℝ) (step : Nat) : Mark ℝ :=
  ⟨start + reach spline width step, spline.curvature (step * width)⟩

theorem reach_succ (spline : Spline ℝ) (width : ℝ) (step : Nat) :
    reach spline width (step + 1) = reach spline width step +
      stretch (spline.slope ((step + 0.5) * width)) * width :=
  Finset.sum_range_succ _ _

theorem reach_lt_succ {width : ℝ} (hwidth : 0 < width) (spline : Spline ℝ) (step : Nat) :
    reach spline width step < reach spline width (step + 1) := by
  have hstep := mul_pos (one_pos.trans_le
    (one_le_stretch (spline.slope ((step + 0.5) * width)))) hwidth
  rw [reach_succ]
  linarith

theorem addSteps_eq (start : ℝ) (spline : Spline ℝ) (width : ℝ) (more step : Nat)
    (marks : Array (Mark ℝ)) :
    (addSteps spline width more step (start + reach spline width step) marks).toList =
      marks.toList ++ (List.range' (step + 1) more).map (markAt start spline width) := by
  induction more generalizing step marks with
  | zero => simp [addSteps]
  | succ more ih =>
    have hnext : start + reach spline width step +
        stretch (spline.slope ((step + 0.5) * width)) * width =
          start + reach spline width (step + 1) := by
      rw [reach_succ, add_assoc]
    have hone : ∀ x : ℝ, (1.0 : ℝ) + x = 1 + x := fun x => by norm_num
    rw [addSteps]
    simp only [Scalar.square_real, Scalar.sqrt_real, Scalar.ofCount_real, hone]
    rw [← stretch, hnext, ih, Array.toList_push, List.append_assoc, List.range'_succ]
    rfl

/-- A curve adds a mark at its start, where the table ends, and one for each of its steps. -/
theorem toList_addSpline (t : CurvatureTable ℝ) (spline : Spline ℝ) :
    (t.addSpline spline).marks.toList = t.marks.toList ++
      (List.range (stepsPerSpline + 1)).map
        (markAt t.length spline (spline.chord / stepsPerSpline)) := by
  have hstart : (⟨t.length, spline.curvature 0.0⟩ : Mark ℝ) =
      markAt t.length spline (spline.chord / stepsPerSpline) 0 := by
    rw [markAt, reach, Finset.sum_range_zero, add_zero, Nat.cast_zero, zero_mul]
    norm_num
  have hsteps := addSteps_eq t.length spline (spline.chord / stepsPerSpline) stepsPerSpline 0
    (t.marks.push ⟨t.length, spline.curvature 0.0⟩)
  rw [reach, Finset.sum_range_zero, add_zero] at hsteps
  rw [marks_addSpline, Scalar.ofCount_real, hsteps, Array.toList_push, List.append_assoc, hstart,
    List.range_eq_range', List.range'_succ]
  rfl

theorem size_addSpline (t : CurvatureTable ℝ) (spline : Spline ℝ) :
    (t.addSpline spline).marks.size = t.marks.size + (stepsPerSpline + 1) := by
  rw [← Array.length_toList, toList_addSpline]
  simp

/-- A table is longer by a curve when that is added. -/
theorem length_addSpline_eq (t : CurvatureTable ℝ) (spline : Spline ℝ) :
    (t.addSpline spline).length =
      t.length + reach spline (spline.chord / stepsPerSpline) stepsPerSpline := by
  have hlast : (t.addSpline spline).marks.back? =
      some (markAt t.length spline (spline.chord / stepsPerSpline) stepsPerSpline) := by
    rw [← Array.getLast?_toList, toList_addSpline, List.range_succ, List.map_append,
      ← List.append_assoc]
    exact List.getLast?_concat ..
  rw [length, hlast]
  rfl

theorem ofSplines_concat (splines : List (Spline ℝ)) (spline : Spline ℝ) :
    ofSplines (splines ++ [spline]) = (ofSplines splines).addSpline spline :=
  List.foldl_concat ..

theorem size_ofSplines (splines : List (Spline ℝ)) :
    (ofSplines splines).marks.size = (stepsPerSpline + 1) * splines.length := by
  induction splines using List.reverseRecOn with
  | nil => rfl
  | append_singleton splines spline ih =>
    rw [ofSplines_concat, size_addSpline, ih, List.length_append, List.length_singleton,
      Nat.mul_succ]

/-- The marks of the curve that is numbered `index` begin where the curves before it end. -/
theorem getElem?_ofSplines {splines : List (Spline ℝ)} {index step : Nat} {spline : Spline ℝ}
    (hindex : splines[index]? = some spline) (hstep : step ≤ stepsPerSpline) :
    (ofSplines splines).marks[(stepsPerSpline + 1) * index + step]? =
      some (markAt (ofSplines (splines.take index)).length spline
        (spline.chord / stepsPerSpline) step) := by
  induction splines using List.reverseRecOn with
  | nil => cases hindex
  | append_singleton splines last ih =>
    rw [ofSplines_concat, ← Array.getElem?_toList, toList_addSpline]
    rcases Nat.lt_or_ge index splines.length with hbefore | hlast
    · have hinside : (stepsPerSpline + 1) * index + step <
          (ofSplines splines).marks.toList.length := by
        have hnext := Nat.mul_le_mul_left (stepsPerSpline + 1) hbefore
        rw [Array.length_toList, size_ofSplines]
        rw [Nat.mul_succ] at hnext
        omega
      rw [List.getElem?_append_left hbefore] at hindex
      rw [List.getElem?_append_left hinside, Array.getElem?_toList, ih hindex,
        List.take_append_of_le_length hbefore.le]
    · obtain ⟨rfl, rfl⟩ : index = splines.length ∧ last = spline := by
        rw [List.getElem?_append_right hlast, List.getElem?_singleton] at hindex
        split at hindex
        · exact ⟨by omega, Option.some.inj hindex⟩
        · cases hindex
      have hsize : (ofSplines splines).marks.toList.length =
          (stepsPerSpline + 1) * splines.length := by
        rw [Array.length_toList, size_ofSplines]
      rw [List.getElem?_append_right (by omega), hsize, Nat.add_sub_cancel_left, List.getElem?_map,
        List.getElem?_range (Nat.lt_succ_of_le hstep), List.take_left]
      rfl

/-- Every mark is at some step of some curve. -/
theorem exists_step {splines : List (Spline ℝ)} {i : Nat} (h : i < (ofSplines splines).marks.size) :
    ∃ index step spline, i = (stepsPerSpline + 1) * index + step ∧ step ≤ stepsPerSpline ∧
      splines[index]? = some spline := by
  have hindex : i / (stepsPerSpline + 1) < splines.length := by
    rw [size_ofSplines] at h
    exact Nat.div_lt_of_lt_mul h
  exact ⟨_, i % (stepsPerSpline + 1), _, (Nat.div_add_mod i _).symm,
    Nat.le_of_lt_succ (Nat.mod_lt i (Nat.succ_pos _)), List.getElem?_eq_getElem hindex⟩

theorem getElem_ofSplines {splines : List (Spline ℝ)} {index step : Nat} {spline : Spline ℝ}
    (hindex : splines[index]? = some spline) (hstep : step ≤ stepsPerSpline)
    (h : (stepsPerSpline + 1) * index + step < (ofSplines splines).marks.size) :
    (ofSplines splines).marks[(stepsPerSpline + 1) * index + step] =
      markAt (ofSplines (splines.take index)).length spline
        (spline.chord / stepsPerSpline) step := by
  have hmark := getElem?_ofSplines hindex hstep
  rw [Array.getElem?_eq_getElem h] at hmark
  exact Option.some.inj hmark

/-- From one mark to the next the distance grows, but for the joint of two curves. -/
structure Ascends (t : CurvatureTable ℝ) : Prop where
  within : ∀ (i : Nat) (h : i + 1 < t.marks.size), ¬stepsPerSpline + 1 ∣ i + 1 →
    t.marks[i].distance < t.marks[i + 1].distance
  joint : ∀ (i : Nat) (h : i + 1 < t.marks.size), stepsPerSpline + 1 ∣ i + 1 →
    t.marks[i].distance = t.marks[i + 1].distance

theorem ascends_ofSplines {splines : List (Spline ℝ)} (h : ∀ spline ∈ splines, 0 < spline.chord) :
    Ascends (ofSplines splines) := by
  have hsteps : (0 : ℝ) < stepsPerSpline := Nat.cast_pos.2 (by decide)
  constructor
  case within =>
    intro i hi hwithin
    obtain ⟨index, step, spline, rfl, hstep, hindex⟩ := exists_step (Nat.lt_of_succ_lt hi)
    have hnot_last : step ≠ stepsPerSpline := by
      rintro rfl
      exact hwithin ⟨index + 1, rfl⟩
    have hnext : step + 1 ≤ stepsPerSpline := by omega
    rw [getElem_ofSplines hindex hstep]
    refine lt_of_lt_of_eq ?_ (congrArg Mark.distance (getElem_ofSplines hindex hnext hi)).symm
    have hwidth := div_pos (h spline (List.mem_of_getElem? hindex)) hsteps
    exact add_lt_add_right (reach_lt_succ hwidth spline step) _
  case joint =>
    intro i hi hjoint
    obtain ⟨index, step, spline, rfl, hstep, hindex⟩ := exists_step (Nat.lt_of_succ_lt hi)
    rw [Nat.add_assoc, Nat.dvd_add_right (Nat.dvd_mul_right _ _)] at hjoint
    obtain rfl : step = stepsPerSpline :=
      le_antisymm hstep (Nat.le_of_succ_le_succ (Nat.le_of_dvd step.succ_pos hjoint))
    have hmore : index + 1 < splines.length := by
      rw [size_ofSplines, Nat.add_assoc, ← Nat.mul_succ] at hi
      exact Nat.lt_of_mul_lt_mul_left hi
    have hstart : (ofSplines (splines.take (index + 1))).length =
        (ofSplines (splines.take index)).length +
          reach spline (spline.chord / stepsPerSpline) stepsPerSpline := by
      rw [List.take_add_one, hindex]
      exact (congrArg length (ofSplines_concat ..)).trans (length_addSpline_eq _ _)
    have hfirst := getElem_ofSplines (List.getElem?_eq_getElem hmore) (Nat.zero_le _) hi
    rw [getElem_ofSplines hindex hstep]
    refine Eq.trans ?_ (congrArg Mark.distance hfirst).symm
    rw [markAt, markAt, hstart, reach, reach, Finset.sum_range_zero, add_zero]

theorem Ascends.le {t : CurvatureTable ℝ} (h : t.Ascends) {i j : Nat} (hj : j < t.marks.size)
    (hij : i ≤ j) : t.marks[i].distance ≤ t.marks[j].distance := by
  induction j, hij using Nat.le_induction with
  | base => exact le_rfl
  | succ j hij ih =>
    refine (ih (by omega)).trans ?_
    by_cases hjoint : stepsPerSpline + 1 ∣ j + 1
    · exact (h.joint j hj hjoint).le
    · exact (h.within j hj hjoint).le

/-- What is looked up at a distance is the curvature of a mark in the table, the first in order that
is not before the distance: the one that a scan from the start of the table comes to. -/
def FindsFirst (t : CurvatureTable ℝ) (distance : ℝ) : Prop :=
  ∃ (i : Nat) (h : i < t.marks.size),
    findFrom t.marks distance 0 t.marks.size le_rfl = i ∧
    (∀ (j : Nat) (hj : j < i), t.marks[j].distance < distance) ∧
    distance ≤ t.marks[i].distance ∧
    t.marks.find? (fun mark => decide (distance ≤ mark.distance)) = some t.marks[i] ∧
    t.curvatureAt distance = t.marks[i].curvature

theorem Ascends.findsFirst {t : CurvatureTable ℝ} (h : t.Ascends) (hne : t.marks ≠ #[])
    {distance : ℝ} (hd : distance ≤ t.length) : t.FindsFirst distance := by
  classical
  have hexists : ∃ i, ∃ hi : i < t.marks.size, distance ≤ t.marks[i].distance := by
    have hsize : t.marks.size - 1 < t.marks.size :=
      Nat.sub_lt (Array.size_pos_iff.2 hne) Nat.one_pos
    refine ⟨t.marks.size - 1, hsize, ?_⟩
    rwa [length, Array.back?_eq_getElem?, Array.getElem?_eq_getElem hsize] at hd
  obtain ⟨hi, hreached⟩ := Nat.find_spec hexists
  have hbefore : ∀ (j : Nat) (hj : j < Nat.find hexists), t.marks[j].distance < distance := by
    intro j hj
    exact not_le.1 fun hle => Nat.find_min hexists hj ⟨hj.trans hi, hle⟩
  have hplace : findFrom t.marks distance 0 t.marks.size le_rfl = Nat.find hexists := by
    refine findFrom_eq (fun j hj => ⟨fun hlt => ?_, hbefore j⟩) _ (Nat.zero_le _) hi.le
    exact Nat.lt_of_not_le fun hle => not_lt.2 (hreached.trans (h.le hj hle)) hlt
  refine ⟨Nat.find hexists, hi, hplace, hbefore, hreached, ?_, ?_⟩
  · rw [Array.find?_eq_some_iff_getElem]
    exact ⟨decide_eq_true hreached, _, hi, rfl, fun j hj => by simpa using hbefore j hj⟩
  · rw [curvatureAt, hplace, Array.getElem?_eq_getElem hi]

/-- The table of a path. Each curve has a mark at its start and one for each of its steps, and the
first mark is at the start of the path. -/
structure Tabulates (splines : List (Spline ℝ)) (t : CurvatureTable ℝ) : Prop
    extends Ascends t where
  size : t.marks.size = (stepsPerSpline + 1) * splines.length
  marks : ∀ (index step : Nat) (spline : Spline ℝ), splines[index]? = some spline →
    step ≤ stepsPerSpline → t.marks[(stepsPerSpline + 1) * index + step]? =
      some (markAt (ofSplines (splines.take index)).length spline
        (spline.chord / stepsPerSpline) step)
  start : t.marks[0]?.map Mark.distance = some 0
  sorted : ∀ (i j : Nat) (hij : i ≤ j) (hj : j < t.marks.size),
    t.marks[i].distance ≤ t.marks[j].distance
  total : (splines.map (·.chord)).sum ≤ t.length

theorem tabulates_ofSplines {splines : List (Spline ℝ)} (hne : splines ≠ [])
    (h : ∀ spline ∈ splines, 0 < spline.chord) : Tabulates splines (ofSplines splines) := by
  have hascends := ascends_ofSplines h
  constructor
  case toAscends => exact hascends
  case size => exact size_ofSplines splines
  case marks => exact fun _ _ _ hindex hstep => getElem?_ofSplines hindex hstep
  case start =>
    have hfirst := getElem?_ofSplines (List.getElem?_eq_getElem (List.length_pos_iff.2 hne))
      (Nat.zero_le _)
    rw [Nat.mul_zero] at hfirst
    rw [hfirst, Option.map_some, markAt, List.take_zero, reach, Finset.sum_range_zero, add_zero]
    exact congrArg some length_empty_real
  case sorted => exact fun _ _ hij hj => hascends.le hj hij
  case total => exact sum_chord_le_length fun spline hs => (h spline hs).le

/-- The table of a path is in order, so up to its end a lookup finds the first mark that is not
before the distance. A velocity profile along the path does not come past the end. -/
theorem lookup_finds_first_mark {splines : List (Spline ℝ)} (hne : splines ≠ [])
    (h : ∀ spline ∈ splines, 0 < spline.chord) :
    Tabulates splines (ofSplines splines) ∧
    (∀ distance ≤ (ofSplines splines).length, (ofSplines splines).FindsFirst distance) ∧
    ∀ limits : Limits ℝ, limits.isValid = true → ∀ t : ℝ, 0 ≤ t →
      let motion := (VelocityProfile.ofDistance (ofSplines splines).length limits).motionAt t
      0 ≤ motion.distance ∧ motion.distance ≤ (ofSplines splines).length ∧
        (ofSplines splines).FindsFirst motion.distance := by
  have htable := tabulates_ofSplines hne h
  have hlength : 0 < (ofSplines splines).length := by
    refine lt_of_lt_of_le ?_ htable.total
    exact List.sum_pos _ (List.forall_mem_map.2 h) (mt List.map_eq_nil_iff.1 hne)
  have hfinds : ∀ distance ≤ (ofSplines splines).length,
      (ofSplines splines).FindsFirst distance :=
    fun distance hd => htable.findsFirst (marks_ne_empty hlength) hd
  refine ⟨htable, hfinds, ?_⟩
  intro limits hv t ht motion
  obtain ⟨hfrom, hto⟩ := VelocityProfile.distance_mem hlength hv ht
  exact ⟨hfrom, hto, hfinds _ hto⟩

/-- On two straight lines of a metre, one after the other, what is looked up where they join is the
curvature of a mark, and so is what is looked up where a profile is after a second. -/
theorem lookup_on_two_straights :
    let straight : Spline ℝ := ⟨0, 0, 0, 1⟩
    let limits : Limits ℝ := ⟨1, 2, 10⟩
    let t := ofSplines [straight, straight]
    [straight, straight] ≠ [] ∧ (∀ spline ∈ [straight, straight], 0 < spline.chord) ∧
      limits.isValid = true ∧ t.marks.size = 2002 ∧ 1 ≤ t.length ∧ t.FindsFirst 1 ∧
      t.FindsFirst ((VelocityProfile.ofDistance t.length limits).motionAt 1).distance := by
  intro straight limits t
  have hne : [straight, straight] ≠ [] := List.cons_ne_nil _ _
  have hchord : ∀ spline ∈ [straight, straight], 0 < spline.chord := by simp [straight]
  have hv : limits.isValid = true := (Limits.isValid_real limits).2 (by norm_num [limits])
  obtain ⟨htable, hfinds, hprofile⟩ := lookup_finds_first_mark hne hchord
  have hlength : 1 ≤ t.length := by
    refine le_trans ?_ htable.total
    norm_num [straight]
  exact ⟨hne, hchord, hv, htable.size, hlength, hfinds 1 hlength,
    (hprofile limits hv 1 zero_le_one).2.2⟩

end CurvatureTable

end SkidSteer
