import SkidSteer.Proofs.Planning.Angles
import SkidSteer.Proofs.Planning.Samples
import SkidSteer.Demand

namespace SkidSteer

namespace Waypoint

/-- A rotation of the plane and then a shift take one waypoint to another, up to whole turns of its
heading. -/
structure MovesTo (angle : ℝ) (shift : ℂ) (w v : Waypoint ℝ) : Prop where
  place : v.place = Complex.exp (angle * Complex.I) * w.place + shift
  heading : (v.heading : Real.Angle) = (w.heading : Real.Angle) + (angle : Real.Angle)

theorem movesTo_translated (dx dy : ℝ) (w : Waypoint ℝ) :
    MovesTo 0 ⟨dx, dy⟩ w (w.translated dx dy) := by
  constructor
  · simp only [Complex.ofReal_zero, zero_mul, Complex.exp_zero, one_mul]
    rfl
  · rw [Real.Angle.coe_zero, add_zero]
    rfl

theorem movesTo_rotated (angle : ℝ) (w : Waypoint ℝ) : MovesTo angle 0 w (w.rotated angle) := by
  constructor
  · rw [add_zero, Complex.exp_mul_I]
    apply Complex.ext <;> simp [place, rotated, ← Complex.ofReal_cos, ← Complex.ofReal_sin]
    ring
  · exact Real.Angle.coe_add _ _

theorem movesTo_turned (turns : ℤ) (w : Waypoint ℝ) : MovesTo 0 0 w (w.turned turns) := by
  constructor
  · simp only [Complex.ofReal_zero, zero_mul, Complex.exp_zero, one_mul, add_zero]
    rfl
  · rw [Real.Angle.coe_zero, add_zero]
    refine Real.Angle.angle_eq_iff_two_pi_dvd_sub.2 ⟨turns, ?_⟩
    rw [turned]
    ring

theorem forall₂_turned (turns : Nat → ℤ) (waypoints : List (Waypoint ℝ)) :
    List.Forall₂ (MovesTo 0 0) waypoints
      (waypoints.mapIdx fun index => turned (turns index)) := by
  refine List.forall₂_iff_get.2 ⟨List.length_mapIdx.symm, fun i hi _ => ?_⟩
  simp only [List.get_eq_getElem, List.getElem_mapIdx]
  exact movesTo_turned (turns i) waypoints[i]

end Waypoint

namespace Spline

variable {segment : Nat} {start finish start' finish' : Waypoint ℝ}

noncomputable def span (start finish : Waypoint ℝ) : ℂ := finish.place - start.place

/-- The angle from a chord to a heading. -/
noncomputable def headingError (heading : ℝ) (chord : ℂ) : ℝ :=
  Scalar.wrapAngle (heading - chord.arg)

theorem fit_real (segment : Nat) (start finish : Waypoint ℝ) : fit segment start finish =
    if ‖span start finish‖ < shortestChord then .error (.coincidentWaypoints segment)
    else if largestHeadingError < |headingError start.heading (span start finish)| then
      .error (.infeasibleSegment segment (headingError start.heading (span start finish)))
    else if largestHeadingError < |headingError finish.heading (span start finish)| then
      .error (.infeasibleSegment segment (headingError finish.heading (span start finish)))
    else .ok (ofSlopes (Real.tan (headingError start.heading (span start finish)))
      (Real.tan (headingError finish.heading (span start finish))) ‖span start finish‖) := by
  have hnorm : ‖span start finish‖ = Real.sqrt ((finish.x - start.x) * (finish.x - start.x) +
      (finish.y - start.y) * (finish.y - start.y)) := by
    rw [Complex.norm_def, Complex.normSq_apply]
    rfl
  rw [hnorm]
  rfl

theorem span_ne_zero (h : ¬‖span start finish‖ < shortestChord) : span start finish ≠ 0 := by
  intro hzero
  rw [hzero, norm_zero] at h
  norm_num [shortestChord] at h

section Moves

variable {angle : ℝ} {shift : ℂ}

theorem span_of_movesTo (hs : Waypoint.MovesTo angle shift start start')
    (hf : Waypoint.MovesTo angle shift finish finish') :
    span start' finish' = Complex.exp (angle * Complex.I) * span start finish := by
  rw [span, span, hs.place, hf.place]
  ring

theorem norm_span_of_movesTo (hs : Waypoint.MovesTo angle shift start start')
    (hf : Waypoint.MovesTo angle shift finish finish') :
    ‖span start' finish'‖ = ‖span start finish‖ := by
  rw [span_of_movesTo hs hf, norm_mul, Complex.norm_exp_ofReal_mul_I, one_mul]

/-- Headings turn as the chord does. -/
theorem headingError_of_moves {heading heading' : ℝ} {chord : ℂ} (hne : chord ≠ 0)
    (h : (heading' : Real.Angle) = (heading : Real.Angle) + (angle : Real.Angle)) :
    headingError heading' (Complex.exp (angle * Complex.I) * chord) =
      headingError heading chord := by
  have hturn : ((Complex.exp (angle * Complex.I)).arg : Real.Angle) = angle := by
    rw [Complex.arg_exp_mul_I, Real.Angle.coe_toIocMod]
  apply Scalar.wrapAngle_congr
  rw [Real.Angle.coe_sub, Real.Angle.coe_sub, h,
    Complex.arg_mul_coe_angle (Complex.exp_ne_zero _) hne, hturn]
  abel

theorem fit_of_movesTo (hs : Waypoint.MovesTo angle shift start start')
    (hf : Waypoint.MovesTo angle shift finish finish') :
    fit segment start' finish' = fit segment start finish := by
  rw [fit_real, fit_real, norm_span_of_movesTo hs hf]
  by_cases hshort : ‖span start finish‖ < shortestChord
  · rw [if_pos hshort, if_pos hshort]
  · have hne := span_ne_zero hshort
    rw [span_of_movesTo hs hf, headingError_of_moves hne hs.heading,
      headingError_of_moves hne hf.heading]

end Moves

noncomputable def reflected (s : Spline ℝ) : Spline ℝ := ⟨-s.a, -s.b, -s.c, s.chord⟩

theorem ofSlopes_neg (start finish chord : ℝ) :
    ofSlopes (-start) (-finish) chord = (ofSlopes start finish chord).reflected := by
  rw [ofSlopes_real, ofSlopes_real, reflected]
  ring_nf

theorem slope_reflected (s : Spline ℝ) (x : ℝ) : s.reflected.slope x = -s.slope x := by
  rw [slope_real, slope_real, reflected]
  ring

theorem curvature_reflected (s : Spline ℝ) (x : ℝ) : s.reflected.curvature x = -s.curvature x := by
  have hbend : 6 * s.reflected.a * x + 2 * s.reflected.b = -(6 * s.a * x + 2 * s.b) := by
    rw [reflected]
    ring
  rw [curvature_real, curvature_real, slope_reflected, neg_mul_neg, hbend, neg_div]

theorem span_reflected (start finish : Waypoint ℝ) :
    span start.reflected finish.reflected = starRingEnd ℂ (span start finish) := by
  apply Complex.ext <;> simp [span, Waypoint.place, Waypoint.reflected]

theorem headingError_reflected (heading : ℝ) (chord : ℂ) :
    headingError (-heading) (starRingEnd ℂ chord) =
      Scalar.wrapAngle (-headingError heading chord) := by
  apply Scalar.wrapAngle_congr
  rw [headingError, Real.Angle.coe_neg, Scalar.coe_wrapAngle, Real.Angle.coe_sub,
    Real.Angle.coe_sub, Real.Angle.coe_neg, Complex.arg_conj_coe_angle]
  abel

end Spline

noncomputable def PlanError.reflected : PlanError ℝ → PlanError ℝ
  | .infeasibleSegment segment headingError =>
    .infeasibleSegment segment (Scalar.wrapAngle (-headingError))
  | error => error

namespace Spline

theorem fit_reflected (segment : Nat) (start finish : Waypoint ℝ) :
    fit segment start.reflected finish.reflected =
      ((fit segment start finish).map reflected).mapError PlanError.reflected := by
  have hnorm : ‖span start.reflected finish.reflected‖ = ‖span start finish‖ := by
    rw [span_reflected, RCLike.norm_conj]
  have herror : ∀ heading, headingError (-heading) (span start.reflected finish.reflected) =
      Scalar.wrapAngle (-headingError heading (span start finish)) := by
    intro heading
    rw [span_reflected, headingError_reflected]
  have hsize : ∀ heading, |Scalar.wrapAngle (-headingError heading (span start finish))| =
      |headingError heading (span start finish)| := by
    intro heading
    obtain ⟨hlow, hhigh⟩ := Scalar.wrapAngle_mem (heading - (span start finish).arg)
    exact Scalar.abs_wrapAngle_neg hlow hhigh
  have hstart : start.reflected.heading = -start.heading := rfl
  have hfinish : finish.reflected.heading = -finish.heading := rfl
  rw [fit_real, fit_real, hnorm, hstart, hfinish, herror, herror, hsize, hsize,
    Scalar.tan_wrapAngle, Scalar.tan_wrapAngle, Real.tan_neg, Real.tan_neg, ofSlopes_neg]
  split_ifs <;> rfl

/-- What a transformation does to the curve between any two waypoints, it does to the curves of a
path. -/
theorem fitFrom_forall₂ {R : Waypoint ℝ → Waypoint ℝ → Prop} {onSpline : Spline ℝ → Spline ℝ}
    {onError : PlanError ℝ → PlanError ℝ}
    (hfit : ∀ {segment start finish start' finish'}, R start start' → R finish finish' →
      fit segment start' finish' = ((fit segment start finish).map onSpline).mapError onError)
    {ws vs : List (Waypoint ℝ)} (h : List.Forall₂ R ws vs) (segment : Nat) :
    fitFrom segment vs = ((fitFrom segment ws).map (List.map onSpline)).mapError onError := by
  induction h generalizing segment with
  | nil => rfl
  | @cons start _ _ _ hfirst hrest ih =>
    cases hrest with
    | nil => rfl
    | @cons finish _ rest _ hnext hlater =>
      rw [fitFrom, fitFrom, hfit hfirst hnext, ih]
      cases fit segment start finish with
      | error e => rfl
      | ok spline => cases fitFrom (segment + 1) (finish :: rest) <;> rfl

theorem fitAll_of_movesTo {angle : ℝ} {shift : ℂ} {ws vs : List (Waypoint ℝ)}
    (h : List.Forall₂ (Waypoint.MovesTo angle shift) ws vs) : fitAll vs = fitAll ws := by
  have hsame : ∀ {β : Type} (r : Except (PlanError ℝ) β), (r.map id).mapError id = r := by
    intro β r
    cases r <;> rfl
  rw [fitAll, fitFrom_forall₂ (fun hs hf => (fit_of_movesTo hs hf).trans (hsame _).symm) h,
    List.map_id_fun]
  exact hsame _

theorem fitAll_reflected (ws : List (Waypoint ℝ)) : fitAll (ws.map .reflected) =
    ((fitAll ws).map (List.map reflected)).mapError PlanError.reflected := by
  refine fitFrom_forall₂ (R := fun w v => v = w.reflected) ?_ ?_ 0
  · rintro segment start finish _ _ rfl rfl
    exact fit_reflected segment start finish
  · exact List.forall₂_map_right_iff.2 (List.forall₂_same.2 fun w _ => rfl)

end Spline

noncomputable def Mark.reflected (mark : Mark ℝ) : Mark ℝ := ⟨mark.distance, -mark.curvature⟩

namespace CurvatureTable

noncomputable def reflected (t : CurvatureTable ℝ) : CurvatureTable ℝ :=
  ⟨t.marks.map Mark.reflected⟩

theorem length_reflected (t : CurvatureTable ℝ) : t.reflected.length = t.length := by
  rw [length, length, reflected, Array.back?_map]
  cases t.marks.back? <;> rfl

theorem addSteps_reflected (spline : Spline ℝ) (width : ℝ) (more step : Nat) (distance : ℝ)
    (marks : Array (Mark ℝ)) :
    addSteps spline.reflected width more step distance (marks.map Mark.reflected) =
      (addSteps spline width more step distance marks).map Mark.reflected := by
  induction more generalizing step distance marks with
  | zero => rfl
  | succ more ih =>
    have hpush : ∀ mark : Mark ℝ, (marks.map Mark.reflected).push mark.reflected =
        (marks.push mark).map Mark.reflected := fun mark => (Array.map_push ..).symm
    simp only [addSteps, Spline.slope_reflected, Spline.curvature_reflected, Scalar.square_real,
      neg_sq]
    rw [← ih, ← hpush]
    rfl

theorem addSpline_reflected (t : CurvatureTable ℝ) (spline : Spline ℝ) :
    t.reflected.addSpline spline.reflected = (t.addSpline spline).reflected := by
  have hchord : spline.reflected.chord = spline.chord := rfl
  have hpush : t.reflected.marks.push ⟨t.length, spline.reflected.curvature 0.0⟩ =
      (t.marks.push ⟨t.length, spline.curvature 0.0⟩).map Mark.reflected := by
    rw [Spline.curvature_reflected, Array.map_push]
    rfl
  rw [addSpline, addSpline, length_reflected, hchord, hpush, addSteps_reflected, reflected]

theorem ofSplines_reflected (splines : List (Spline ℝ)) :
    ofSplines (splines.map Spline.reflected) = (ofSplines splines).reflected := by
  suffices ∀ t : CurvatureTable ℝ, (splines.map Spline.reflected).foldl addSpline t.reflected =
      (splines.foldl addSpline t).reflected by
    have hempty : (empty : CurvatureTable ℝ).reflected = empty := by simp [reflected, empty]
    rw [ofSplines, ofSplines, ← this, hempty]
  induction splines with
  | nil => exact fun t => rfl
  | cons spline rest ih =>
    intro t
    rw [List.map_cons, List.foldl_cons, List.foldl_cons, addSpline_reflected, ih]

/-- Which mark is found depends on the distances only. -/
theorem findFrom_reflected (marks : Array (Mark ℝ)) (distance : ℝ) (low high : Nat)
    (within : high ≤ marks.size) (within' : high ≤ (marks.map Mark.reflected).size) :
    findFrom (marks.map Mark.reflected) distance low high within' =
      findFrom marks distance low high within := by
  fun_induction findFrom marks distance low high within with
  | case1 low high within below inside hbefore ih =>
    rw [findFrom]
    simp [below, Mark.reflected, hbefore, ih]
  | case2 low high within below inside hbefore ih =>
    rw [findFrom]
    simp [below, Mark.reflected, hbefore, ih]
  | case3 low high within below =>
    rw [findFrom, dif_neg below]

theorem curvatureAt_reflected (t : CurvatureTable ℝ) (distance : ℝ) :
    t.reflected.curvatureAt distance = -t.curvatureAt distance := by
  have hsize : t.reflected.marks.size = t.marks.size := Array.size_map
  have hplace : findFrom t.reflected.marks distance 0 t.reflected.marks.size (Nat.le_refl _) =
      findFrom t.marks distance 0 t.marks.size (Nat.le_refl _) := by
    refine Eq.trans ?_ (findFrom_reflected t.marks distance 0 t.marks.size le_rfl hsize.ge)
    congr 1
  have hfound : ∀ i : Nat, t.reflected.marks[i]? = t.marks[i]?.map Mark.reflected :=
    fun i => Array.getElem?_map
  have hback : t.reflected.marks.back? = t.marks.back?.map Mark.reflected := Array.back?_map
  rw [curvatureAt, curvatureAt, hplace, hfound, hback]
  cases t.marks[findFrom t.marks distance 0 t.marks.size (Nat.le_refl _)]? with
  | some mark => rfl
  | none =>
    cases t.marks.back? with
    | some mark => rfl
    | none => norm_num

end CurvatureTable

def Trajectory.swapped {α : Type} (t : Trajectory α) : Trajectory α :=
  ⟨t.samples.map Sample.swapped⟩

def Plan.swapped {α : Type} : Plan α → Plan α
  | .empty => .empty
  | .path length waypoints t => .path length waypoints t.swapped

/-- What the motors are asked for where a plan is driven, one pair of demands for each sample. -/
noncomputable def Plan.demands (converter : Converter ℝ) (options : RunOptions) (plan : Plan ℝ) :
    List (ℝ × ℝ) :=
  plan.trajectory.samples.toList.map (converter.demands options)

namespace Planner

variable (p : Planner ℝ) (table : CurvatureTable ℝ) (profile : VelocityProfile ℝ)

theorem split_neg (middle curvature : ℝ) :
    p.split middle (-curvature) = (p.split middle curvature).swap := by
  rw [split_real, split_real, Prod.swap]
  ring_nf

/-- Where the path turns the other way the wheels change places at each step. -/
theorem sampleAt_reflected (index : Nat) (previous : Option (Sample ℝ)) :
    p.sampleAt table.reflected profile index (previous.map Sample.swapped) =
      (p.sampleAt table profile index previous).swapped := by
  simp only [sampleAt, CurvatureTable.curvatureAt_reflected, split_neg]
  cases previous <;> rfl

theorem samplesFrom_reflected (more index : Nat) (previous : Option (Sample ℝ))
    (done : Array (Sample ℝ)) :
    p.samplesFrom table.reflected profile more index (previous.map Sample.swapped)
        (done.map Sample.swapped) =
      (p.samplesFrom table profile more index previous done).map Sample.swapped := by
  induction more generalizing index previous done with
  | zero => rfl
  | succ more ih =>
    rw [samplesFrom, samplesFrom, sampleAt_reflected, ← ih, Array.map_push]
    rfl

theorem follow_reflected : p.follow table.reflected profile =
    ((p.follow table profile).map Trajectory.swapped).mapError PlanError.reflected := by
  have hsamples := p.samplesFrom_reflected table profile
    (Scalar.toCount (p.sampleCount profile)) 0 none #[]
  rw [Option.map_none, Array.map_empty] at hsamples
  simp only [follow, all_isFinite_real, if_true, hsamples]
  split_ifs <;> rfl

variable {p} {waypoints moved : List (Waypoint ℝ)} {limits : Limits ℝ}

/-- Waypoints that have the same curves have the same plan. -/
theorem plan_congr (hlength : moved.length = waypoints.length)
    (hfit : Spline.fitAll moved = Spline.fitAll waypoints) :
    p.plan moved limits = p.plan waypoints limits := by
  rw [Planner.plan, Planner.plan, hlength, hfit]

theorem plan_of_movesTo {angle : ℝ} {shift : ℂ}
    (h : List.Forall₂ (Waypoint.MovesTo angle shift) waypoints moved) :
    p.plan moved limits = p.plan waypoints limits :=
  plan_congr h.length_eq.symm (Spline.fitAll_of_movesTo h)

theorem plan_reflected : p.plan (waypoints.map .reflected) limits =
    ((p.plan waypoints limits).map Plan.swapped).mapError PlanError.reflected := by
  unfold Planner.plan
  rw [List.length_map, Spline.fitAll_reflected]
  split_ifs
  · rfl
  · rfl
  · rfl
  · cases Spline.fitAll waypoints with
    | error e => rfl
    | ok splines =>
      simp only [Except.map, Except.mapError, CurvatureTable.ofSplines_reflected,
        CurvatureTable.length_reflected, follow_reflected]
      cases p.follow (.ofSplines splines) _ <;> rfl

/-- With the sides exchanged a run asks for what the mirrored run does. -/
theorem demands_swapped (converter : Converter ℝ) (options : RunOptions) (plan : Plan ℝ) :
    plan.swapped.demands converter options =
      plan.demands converter { options with mirrored := !options.mirrored } := by
  have hsample : ∀ sample : Sample ℝ, converter.demands options sample.swapped =
      converter.demands { options with mirrored := !options.mirrored } sample := by
    intro sample
    obtain ⟨reverse, mirrored⟩ := options
    cases reverse <;> cases mirrored <;> rfl
  cases plan with
  | empty => rfl
  | path length waypoints t =>
    change (t.samples.map Sample.swapped).toList.map (converter.demands options) = _
    rw [Array.toList_map, List.map_map]
    exact List.map_congr_left fun sample _ => hsample sample

/-- Planning without rounding commutes with the symmetries of the plane. The plan, or the fault, is
the same where all waypoints are shifted or rotated, and where headings are turned by whole turns.
Where they are reflected the sides of the plan change places, or the same segment has the same
fault: what the motors are then asked for is what a mirrored run of the first plan asks for. -/
theorem plan_symmetries (p : Planner ℝ) (waypoints : List (Waypoint ℝ)) (limits : Limits ℝ) :
    (∀ dx dy, p.plan (waypoints.map (.translated dx dy)) limits = p.plan waypoints limits) ∧
    (∀ angle, p.plan (waypoints.map (.rotated angle)) limits = p.plan waypoints limits) ∧
    (∀ turns : Nat → ℤ, p.plan (waypoints.mapIdx fun index => .turned (turns index)) limits =
      p.plan waypoints limits) ∧
    p.plan (waypoints.map .reflected) limits =
      ((p.plan waypoints limits).map Plan.swapped).mapError PlanError.reflected ∧
    ∀ (converter : Converter ℝ) (options : RunOptions),
      (p.plan (waypoints.map .reflected) limits).map (Plan.demands converter options) =
        ((p.plan waypoints limits).map (Plan.demands converter
          { options with mirrored := !options.mirrored })).mapError PlanError.reflected := by
  have hmap : ∀ {angle : ℝ} {shift : ℂ} {f : Waypoint ℝ → Waypoint ℝ},
      (∀ w, Waypoint.MovesTo angle shift w (f w)) →
        p.plan (waypoints.map f) limits = p.plan waypoints limits := fun hf =>
    plan_of_movesTo (List.forall₂_map_right_iff.2 (List.forall₂_same.2 fun w _ => hf w))
  refine ⟨fun dx dy => hmap (Waypoint.movesTo_translated dx dy),
    fun angle => hmap (Waypoint.movesTo_rotated angle),
    fun turns => plan_of_movesTo (Waypoint.forall₂_turned turns waypoints),
    plan_reflected, fun converter options => ?_⟩
  rw [plan_reflected]
  cases p.plan waypoints limits with
  | error e => rfl
  | ok plan => exact congrArg Except.ok (demands_swapped converter options plan)

end Planner

end SkidSteer
