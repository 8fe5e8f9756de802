import SkidSteer.Proofs.Planning.Reals
import SkidSteer.Proofs.Planning.Curves

namespace SkidSteer

namespace CurvatureTable

variable {α : Type} [Scalar α] {P : α → Prop}

theorem forall_addSteps {spline : Spline α} {width : α} (hs : ∀ x, P (spline.curvature x))
    (more step : Nat) {distance : α} {marks : Array (Mark α)}
    (hm : ∀ mark ∈ marks, P mark.curvature) :
    ∀ mark ∈ addSteps spline width more step distance marks, P mark.curvature := by
  induction more generalizing step distance marks with
  | zero => exact hm
  | succ more ih =>
    refine ih _ fun mark hmark => ?_
    rcases Array.mem_push.1 hmark with hold | rfl
    · exact hm mark hold
    · exact hs _

theorem marks_addSpline (t : CurvatureTable α) (spline : Spline α) : (t.addSpline spline).marks =
    addSteps spline (spline.chord / Scalar.ofCount stepsPerSpline) stepsPerSpline 0 t.length
      (t.marks.push ⟨t.length, spline.curvature 0.0⟩) := by
  rw [addSpline]

/-- What holds of the curvature of each curve, wherever it is taken, holds of each mark. -/
theorem forall_ofSplines {splines : List (Spline α)}
    (h : ∀ spline ∈ splines, ∀ x, P (spline.curvature x)) :
    ∀ mark ∈ (ofSplines splines).marks, P mark.curvature := by
  suffices ∀ t : CurvatureTable α, (∀ mark ∈ t.marks, P mark.curvature) →
      ∀ mark ∈ (splines.foldl addSpline t).marks, P mark.curvature from
    this empty fun mark hm => nomatch hm
  induction splines with
  | nil => exact fun t ht => ht
  | cons spline rest ih =>
    obtain ⟨hs, hrest⟩ := List.forall_mem_cons.1 h
    intro t ht
    rw [List.foldl_cons]
    refine ih hrest (t.addSpline spline) ?_
    rw [marks_addSpline]
    refine forall_addSteps hs _ _ fun mark hm => ?_
    rcases Array.mem_push.1 hm with hold | rfl
    · exact ht mark hold
    · exact hs _

/-- What is looked up is the curvature of a mark. -/
theorem curvatureAt_of_forall {t : CurvatureTable α} (hne : t.marks ≠ #[])
    (h : ∀ mark ∈ t.marks, P mark.curvature) (distance : α) : P (t.curvatureAt distance) := by
  unfold curvatureAt
  split
  · rename_i mark hfound
    exact h mark (Array.mem_of_getElem? hfound)
  · split
    · rename_i mark hlast
      exact h mark (Array.mem_of_back? hlast)
    · rename_i hnone
      exact absurd (Array.back?_eq_none_iff.1 hnone) hne

variable {spline : Spline ℝ} {t : CurvatureTable ℝ}

theorem length_empty_real : (empty : CurvatureTable ℝ).length = 0 := by
  norm_num [length, empty]

theorem marks_ne_empty (h : 0 < t.length) : t.marks ≠ #[] := by
  intro hempty
  rw [length, hempty, Array.back?_empty] at h
  norm_num at h

theorem length_mk_marks (t : CurvatureTable ℝ) : length ⟨t.marks⟩ = t.length := rfl

noncomputable def stretch (slope : ℝ) : ℝ := Real.sqrt (1 + slope ^ 2)

theorem one_le_stretch (slope : ℝ) : 1 ≤ stretch slope :=
  Real.one_le_sqrt.2 (le_add_of_nonneg_right (sq_nonneg slope))

theorem addSteps_succ_real (spline : Spline ℝ) (width : ℝ) (more step : Nat) (distance : ℝ)
    (marks : Array (Mark ℝ)) : ∃ mark : Mark ℝ,
      mark.distance = distance + stretch (spline.slope ((step + 1 / 2) * width)) * width ∧
      addSteps spline width (more + 1) step distance marks =
        addSteps spline width more (step + 1) mark.distance (marks.push mark) := by
  refine ⟨⟨_, _⟩, ?_, rfl⟩
  simp only [Scalar.square_real, Scalar.sqrt_real, Scalar.ofCount_real, stretch]
  norm_num

/-- No part of a curve is longer than its chord by more than this factor. -/
def StretchesBy (spline : Spline ℝ) (most : ℝ) : Prop :=
  ∀ x, 0 ≤ x → x ≤ spline.chord → stretch (spline.slope x) ≤ most

/-- Each step adds its width at least, and at most as much as the slope allows. -/
theorem length_addSteps_bounds {width : ℝ} (hwidth : 0 ≤ width) (more step : Nat)
    (hend : (step + more : ℝ) * width ≤ spline.chord) {distance : ℝ} {marks : Array (Mark ℝ)}
    (hd : length ⟨marks⟩ = distance) :
    distance + more * width ≤ length ⟨addSteps spline width more step distance marks⟩ ∧
      ∀ most, StretchesBy spline most →
        length ⟨addSteps spline width more step distance marks⟩ ≤
          distance + more * width * most := by
  induction more generalizing step distance marks with
  | zero => simp [addSteps, hd]
  | succ more ih =>
    obtain ⟨mark, hmark, hnext⟩ := addSteps_succ_real spline width more step distance marks
    push_cast at hend ⊢
    obtain ⟨hlow, hhigh⟩ := ih (step + 1) (by push_cast; linarith) (length_push marks mark)
    have hmore : (0 : ℝ) ≤ more := Nat.cast_nonneg more
    have hmiddle : ((step : ℝ) + 1 / 2) * width ≤ spline.chord :=
      (mul_le_mul_of_nonneg_right (by linarith) hwidth).trans hend
    rw [hnext]
    constructor
    · have hleast := mul_le_mul_of_nonneg_right
        (one_le_stretch (spline.slope ((step + 1 / 2) * width))) hwidth
      linarith
    · intro most hmost
      have hgreatest := mul_le_mul_of_nonneg_right (hmost _ (by positivity) hmiddle) hwidth
      linarith [hhigh most hmost]

/-- A curve is as long as its chord at least, and at most as much longer as its slope allows. -/
theorem length_addSpline_bounds (hchord : 0 ≤ spline.chord) :
    t.length + spline.chord ≤ (t.addSpline spline).length ∧
      ∀ most, StretchesBy spline most →
        (t.addSpline spline).length ≤ t.length + spline.chord * most := by
  have hsteps : ∀ n : Nat, 0 < n → ∀ marks, length ⟨marks⟩ = t.length →
      t.length + spline.chord ≤
          length ⟨addSteps spline (spline.chord / Scalar.ofCount n) n 0 t.length marks⟩ ∧
        ∀ most, StretchesBy spline most →
          length ⟨addSteps spline (spline.chord / Scalar.ofCount n) n 0 t.length marks⟩ ≤
            t.length + spline.chord * most := by
    intro n hn marks hmarks
    have hwhole : (n : ℝ) * (spline.chord / n) = spline.chord :=
      mul_div_cancel₀ _ (Nat.cast_ne_zero.2 hn.ne')
    have hwidth : 0 ≤ spline.chord / n := by positivity
    have hends := length_addSteps_bounds hwidth n 0 (by rw [Nat.cast_zero, zero_add, hwhole]) hmarks
    rwa [hwhole] at hends
  rw [← length_mk_marks (t.addSpline spline), marks_addSpline]
  exact hsteps stepsPerSpline (by decide) _ (length_push _ _)

/-- A path is as long as its chords together, at least. -/
theorem sum_chord_le_length {splines : List (Spline ℝ)}
    (h : ∀ spline ∈ splines, 0 ≤ spline.chord) :
    (splines.map (·.chord)).sum ≤ (ofSplines splines).length := by
  suffices ∀ t : CurvatureTable ℝ, t.length + (splines.map (·.chord)).sum ≤
      (splines.foldl addSpline t).length by
    have hall := this empty
    rwa [length_empty_real, zero_add] at hall
  induction splines with
  | nil => exact fun t => by simp
  | cons spline rest ih =>
    obtain ⟨hs, hrest⟩ := List.forall_mem_cons.1 h
    intro t
    rw [List.map_cons, List.sum_cons, List.foldl_cons]
    have hfirst := (length_addSpline_bounds (t := t) hs).1
    have hlater := ih hrest (t.addSpline spline)
    linarith

end CurvatureTable

end SkidSteer
